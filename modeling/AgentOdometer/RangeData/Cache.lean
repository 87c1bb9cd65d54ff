import AgentOdometer.Lib.OrderedSet
import AgentOdometer.RangeData.SessionsStore

/-!
# Delta-refresh bookkeeping

`MutationAccumulator` and `RangeDataCache` (`rangeData.ts:32–175`). A `Set` is an insertion-ordered
set, a `Record` a map.
-/

namespace AgentOdometer.RangeData

open Std (ExtTreeMap)

/-- `MutationAccumulator`, `rangeData.ts:32–37`. -/
structure MutationAccumulator where
  lastGeneration : Int
  changed : List String
  removed : List String
  replaced : Bool
deriving Repr, DecidableEq

namespace MutationAccumulator

/-- A new accumulator: unknown history. -/
def new : MutationAccumulator :=
  ⟨-1, [], [], true⟩

/-- `observe`, `rangeData.ts:39–57`. -/
def observe (acc : MutationAccumulator) (log : SessionMutationLog) : MutationAccumulator :=
  if log.generation = acc.lastGeneration then acc
  else if log.replaced then ⟨log.generation, [], [], true⟩
  else
    let changed := OrderedSet.addAll acc.changed log.changed
    let removed := OrderedSet.deleteAll acc.removed log.changed
    ⟨log.generation, OrderedSet.deleteAll changed log.removed,
      OrderedSet.addAll removed log.removed, acc.replaced⟩

/-- What `drain` answers: the changed ids, none where the history is unknown, and the removed
ones. -/
structure Drained where
  changedIds : Option (List String)
  removedIds : List String
deriving Repr, DecidableEq

/-- `drain`, `rangeData.ts:59–69`. -/
def drain (acc : MutationAccumulator) : Drained × MutationAccumulator :=
  (⟨if acc.replaced then none else some acc.changed, acc.removed⟩,
    ⟨acc.lastGeneration, [], [], false⟩)

end MutationAccumulator

/-- `RangePlan`, `rangeData.ts:83–86`. -/
inductive RangePlan where
  | full
  | delta (fetchIds : List String)
  | none
deriving Repr, DecidableEq

variable {τ : Type}

/-- `RangeDataCache`, `rangeData.ts:95–98`. -/
structure RangeDataCache (τ : Type) where
  rangesKey : Option String
  known : List String
  results : Option (List (ExtTreeMap String τ))

namespace RangeDataCache

/-- An empty cache, which `invalidate` also leaves (`rangeData.ts:169–174`). -/
def empty : RangeDataCache τ :=
  ⟨none, [], none⟩

/-- The ids which a delta fetches. Follows `rangeData.ts:113–120`. -/
def fetchIds (cache : RangeDataCache τ) (ids changedIds removedIds : List String) : List String :=
  let fetch := OrderedSet.addAll [] (changedIds.filter (· ∈ cache.known))
  let fetch := OrderedSet.addAll fetch (ids.filter (· ∉ cache.known))
  OrderedSet.deleteAll fetch removedIds

/-- `plan`, `rangeData.ts:100–123`. -/
def plan (cache : RangeDataCache τ) (rangesKey : String) (ids : List String)
    (drained : MutationAccumulator.Drained) : RangePlan :=
  match cache.results, drained.changedIds with
  | some _, some changedIds =>
      if cache.rangesKey ≠ some rangesKey ||
        cache.known.any (fun id ↦ !ids.contains id && !drained.removedIds.contains id) then .full
      else
        let fetch := cache.fetchIds ids changedIds drained.removedIds
        if fetch.isEmpty && drained.removedIds.isEmpty then .none
        else .delta fetch
  | _, _ => .full

/-- `applyFull`, `rangeData.ts:129–138`. -/
def applyFull (rangesKey : String) (ids : List String) (results : List (ExtTreeMap String τ)) :
    RangeDataCache τ :=
  ⟨some rangesKey, OrderedSet.ofList ids, some results⟩

/-- One fetched id. Follows `rangeData.ts:155–159`. -/
def mergeId (source : Option (ExtTreeMap String τ)) (merged : ExtTreeMap String τ) (id : String) :
    ExtTreeMap String τ :=
  match source.bind (·[id]?) with
  | some totals => merged.insert id totals
  | none => merged.erase id

/-- One range of a delta. Follows `rangeData.ts:152–162`. -/
def mergeRange (fetchIds removedIds : List String) (previous : ExtTreeMap String τ)
    (source : Option (ExtTreeMap String τ)) : ExtTreeMap String τ :=
  removedIds.foldl (·.erase ·) (fetchIds.foldl (mergeId source) previous)

/-- `applyDelta`, `rangeData.ts:140–167`, which throws on an empty cache. -/
def applyDelta (cache : RangeDataCache τ) (fetchIds removedIds : List String)
    (fetched : Option (List (ExtTreeMap String τ))) : Option (RangeDataCache τ) :=
  cache.results.map fun results ↦
    { cache with
      known := OrderedSet.deleteAll (OrderedSet.addAll cache.known fetchIds) removedIds
      results := some (results.mapIdx fun rangeIndex previous ↦
        mergeRange fetchIds removedIds previous (fetched.bind (·[rangeIndex]?))) }

end RangeDataCache

end AgentOdometer.RangeData
