import Mathlib.Init
import Std.Data.ExtTreeMap

/-!
# The sessions store

The session map and the mutation log of `createSessionsStore` (`sessions.svelte.ts:22–86`), with
what the backend would answer for each session and window.
-/

namespace AgentOdometer.RangeData

open Std (ExtTreeMap)

/-- `SessionMutationLog`, `rangeData.ts:23–30`. -/
structure SessionMutationLog where
  generation : Nat
  changed : List String
  removed : List String
  replaced : Bool
deriving Repr, DecidableEq

/-- What the backend answers for a window and a session. -/
abbrev Usage (ω τ : Type) : Type :=
  ω → String → Option τ

/-- The store: the tracked sessions by their storage id, the latest log and its generation, and the
totals of the sessions, which the transcripts determine. -/
structure SessionsStore (σ ω τ : Type) where
  map : ExtTreeMap String σ
  mutationLog : SessionMutationLog
  generation : Nat
  usage : Usage ω τ

namespace SessionsStore

variable {σ ω τ : Type}

/-- The store before the first session. Follows `sessions.svelte.ts:23–32`. -/
def empty (usage : Usage ω τ) : SessionsStore σ ω τ :=
  ⟨∅, ⟨0, [], [], true⟩, 0, usage⟩

/-- `logMutation`, `sessions.svelte.ts:34–37`. -/
def logMutation (store : SessionsStore σ ω τ) (changed removed : List String) (replaced : Bool) :
    SessionsStore σ ω τ :=
  { store with
    generation := store.generation + 1
    mutationLog := ⟨store.generation + 1, changed, removed, replaced⟩ }

/-- Insert or update sessions. -/
def insertAll (map : ExtTreeMap String σ) (list : List (String × σ)) : ExtTreeMap String σ :=
  list.foldl (fun map s ↦ map.insert s.1 s.2) map

/-- `replaceAll`, `sessions.svelte.ts:39–47`. -/
def replaceAll (store : SessionsStore σ ω τ) (list : List (String × σ)) : SessionsStore σ ω τ :=
  { store with map := insertAll ∅ list }.logMutation [] [] true

/-- `upsertMany`, `sessions.svelte.ts:54–65`. -/
def upsertMany (store : SessionsStore σ ω τ) (list : List (String × σ)) : SessionsStore σ ω τ :=
  if list.isEmpty then store
  else { store with map := insertAll store.map list }.logMutation (list.map Prod.fst) [] false

/-- `applyMutations`, `sessions.svelte.ts:67–78`. -/
def applyMutations (store : SessionsStore σ ω τ) (list : List (String × σ))
    (removals : List String) : SessionsStore σ ω τ :=
  if list.isEmpty && removals.isEmpty then store
  else
    { store with map := removals.foldl (·.erase ·) (insertAll store.map list) }.logMutation
      (list.map Prod.fst) removals false

/-- `remove`, `sessions.svelte.ts:80–86`. -/
def remove (store : SessionsStore σ ω τ) (id : String) : SessionsStore σ ω τ :=
  { store with map := store.map.erase id }.logMutation [] [id] false

end SessionsStore

end AgentOdometer.RangeData
