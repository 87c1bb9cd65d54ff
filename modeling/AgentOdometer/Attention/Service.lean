import AgentOdometer.Attention.Signals
import AgentOdometer.Base.Checked
import AgentOdometer.Lib.Transition
import Mathlib.Data.List.Destutter
import Mathlib.Logic.Function.Basic

/-!
# The attention service

The stored preferences and memories of `attention.rs`, and the processes which share their file
(`attention.rs:30–491`). What is written to the file is what is read back; whether it can be
read, locked and written is an input.
-/

namespace AgentOdometer.Attention

open Ledger (effectiveStorageId)
open Std (ExtTreeMap)

/-- `MAX_SEEN`, `attention.rs:12`. -/
def MAX_SEEN : Nat :=
  512

/-- `MAX_SESSIONS`, `attention.rs:13`. -/
def MAX_SESSIONS : Nat :=
  100

/-- `MAX_ALERTS`, `attention.rs:14`. -/
def MAX_ALERTS : Nat :=
  20

/-- `ERROR`, `attention.rs:16–17`. -/
def ERROR : String :=
  "Attention preferences or deduplication state are unavailable; alerts are suppressed"

/-- `Duration::seconds`. -/
def seconds (n : Nat) : Duration :=
  ⟨n * 10 ^ 9⟩

/-! ### Preferences and the store -/

/-- `Preferences`, `attention.rs:30–39`. -/
structure Preferences where
  revision : Nat
  categories : List EventKind
  providers : List ProviderId
  toolKind : Option ToolKind
  staleAfterSeconds : Nat
deriving Repr, DecidableEq

namespace Preferences

/-- `Preferences::default`, `attention.rs:40–50`. -/
def default : Preferences :=
  ⟨0, [], [], none, 300⟩

/-- A provider which `ProviderRegistry::builtin` knows. -/
def isKnownProvider (provider : ProviderId) : Bool :=
  provider.value.utf8ByteSize ≤ 64 && ProviderRegistry.descriptors.any (·.id == provider)

/-- `Preferences::validate`, `attention.rs:51–67`. -/
def validate (preferences : Preferences) : Except String Unit :=
  require (preferences.categories.length ≤ 6 && preferences.providers.length ≤ 16 &&
    preferences.providers.all isKnownProvider && 30 ≤ preferences.staleAfterSeconds &&
      preferences.staleAfterSeconds ≤ 3600)
    "Invalid attention preferences"

/-- The update which `preferences` saves: sorted, and without repetitions. Follows
`attention.rs:254–257`. -/
def normalized (preferences : Preferences) : Preferences :=
  { preferences with
    categories := (preferences.categories.mergeSort (·.rank ≤ ·.rank)).destutter (· ≠ ·)
    providers := (preferences.providers.mergeSort (·.value ≤ ·.value)).destutter (· ≠ ·) }

end Preferences

/-- `Store`, `attention.rs:69–77`. -/
structure Store where
  version : Nat
  preferences : Preferences
  seen : List String
  watermarks : ExtTreeMap String DateTime
  lastAlert : Option DateTime

/-- `Store::default`, `attention.rs:78–88`. -/
def Store.default : Store :=
  ⟨1, .default, [], ∅, none⟩

/-- A hash as `digest` prints it. Follows `attention.rs:167–172`. -/
def isDigest (id : String) : Bool :=
  id.utf8ByteSize == 16 &&
    id.toList.all fun c ↦ c.isDigit || ('a' ≤ c && c ≤ 'f') || ('A' ≤ c && c ≤ 'F')

/-- `digest`, `attention.rs:148–150`. -/
def digest (value : String) : String :=
  stableHash value

/-- `load`, `attention.rs:151–182`. -/
def load (file : Option Store) (readable : Bool) (now : DateTime) : Except String Store :=
  if readable then
    match file with
    | none => .ok .default
    | some store => do
        require (store.version == 1 && store.seen.length ≤ MAX_SEEN &&
          store.watermarks.size ≤ MAX_SESSIONS &&
            (store.seen ++ store.watermarks.keys).all isDigest) ERROR
        store.preferences.validate
        require (store.lastAlert.all (· ≤ now) && store.watermarks.toList.all (·.2 ≤ now)) ERROR
        return store
  else .error ERROR

/-- Whether the file can be read, locked and written. -/
structure Access where
  readable : Bool
  lockable : Bool
  writable : Bool
deriving Repr, DecidableEq

/-- `lock` and the `load` under it, `attention.rs:192–204`. -/
def loadLocked (file : Option Store) (access : Access) (now : DateTime) : Except String Store := do
  require access.lockable ERROR
  load file access.readable now

/-! ### A process -/

/-- `Observation`, `attention.rs:100–110`. -/
structure Observation where
  sessionRef : String
  provider : ProviderId
  state : AttentionState
  observedState : AttentionState
  observedAt : DateTime
  source : String
  stale : Bool
  isPartial : Bool
deriving Repr, DecidableEq

/-- `Alert`, `attention.rs:111–120`. -/
structure Alert where
  id : String
  sessionRef : String
  providerLabel : String
  category : EventKind
  observedAt : DateTime
  source : String
deriving Repr, DecidableEq

/-- `Inner`, `attention.rs:136–142`. -/
structure Inner where
  store : Store
  available : Bool
  armedAt : DateTime
  observations : ExtTreeMap String Observation
  alerts : List Alert

/-- `AttentionService::open`, `attention.rs:225–241`. -/
def openService (file : Option Store) (readable : Bool) (now : DateTime) : Inner :=
  match load file readable now with
  | .ok store => ⟨store, true, now, ∅, []⟩
  | .error _ => ⟨.default, false, now, ∅, []⟩

/-- `preferences`, `attention.rs:248–274`: the update and the file after it. -/
def Inner.preferences (inner : Inner) (file : Option Store) (access : Access)
    (update : Preferences) (now : DateTime) : Except String (Inner × Store) := do
  update.validate
  let update := update.normalized
  let store ← loadLocked file access now
  require (update.revision == store.preferences.revision)
    "Attention preferences changed; reload before saving"
  require (decide (update.revision + 1 < 2 ^ 64)) ERROR
  let store := { store with preferences := { update with revision := update.revision + 1 } }
  require access.writable ERROR
  return ({ inner with store, available := true, armedAt := now, observations := ∅, alerts := [] },
    store)

/-! ### Publishing -/

/-- What `publish` has made of the store, and the signal of the alert which it raises. -/
structure Consumed where
  store : Store
  alert : Option Signal

/-- The watermarks of the last hour. Follows `attention.rs:366–368`. -/
def Store.prune (store : Store) (now : DateTime) : Store :=
  { store with
    watermarks := store.watermarks.filter fun _ time ↦
      decide (now.signedDurationSince time ≤ seconds 3600) }

/-- The id under which a signal is remembered. Follows `attention.rs:382`. -/
def seenId (storageId : String) (signal : Signal) : String :=
  digest (storageId ++ "\x00" ++ signal.id)

/-- The last alert leaves room for another one. Follows `attention.rs:390–392`. -/
def mayAlert (lastAlert : Option DateTime) (now : DateTime) : Bool :=
  lastAlert.all fun time ↦ decide (seconds 30 ≤ now.signedDurationSince time)

/-- One candidate. Follows `attention.rs:375–409`. -/
def consume (storageId : String) (watermark : Option DateTime) (now : DateTime) (c : Consumed)
    (signal : Signal) : Consumed :=
  let id := seenId storageId signal
  if watermark.any (signal.time ≤ ·) || c.store.seen.contains id then c
  else
    let store := { c.store with
      seen := c.store.seen ++ [id]
      watermarks := c.store.watermarks.insert (digest storageId) signal.time }
    if c.alert.isNone && mayAlert c.store.lastAlert now then
      ⟨{ store with lastAlert := some now }, some signal⟩
    else ⟨store, c.alert⟩

/-- The label of a provider. Follows `attention.rs:398–403`. -/
def providerLabel (provider : ProviderId) : String :=
  match provider.value with
  | "codex" => "Codex"
  | "claude_code" => "Claude Code"
  | "gemini_cli" => "Gemini CLI"
  | _ => "Other provider"

/-- The alert of a signal. Follows `attention.rs:395–407`. -/
def alertOf (storageId : String) (provider : ProviderId) (signal : Signal) : Alert :=
  ⟨seenId storageId signal, digest storageId, providerLabel provider, signal.category, signal.time,
    signal.source⟩

/-- The hash log keeps its newest entries. Follows `attention.rs:410–412`. -/
def Store.trim (store : Store) : Store :=
  { store with seen := store.seen.drop (store.seen.length - MAX_SEEN) }

@[simp]
theorem Store.trim_watermarks (store : Store) : store.trim.watermarks = store.watermarks := by
  simp only [trim]

@[simp]
theorem Store.trim_lastAlert (store : Store) : store.trim.lastAlert = store.lastAlert := by
  simp only [trim]

theorem Store.trim_seen (store : Store) :
    store.trim.seen = store.seen.drop (store.seen.length - MAX_SEEN) := by
  simp only [trim]

@[simp]
theorem Store.prune_seen (store : Store) (now : DateTime) :
    (store.prune now).seen = store.seen := by
  simp only [prune]

@[simp]
theorem Store.prune_lastAlert (store : Store) (now : DateTime) :
    (store.prune now).lastAlert = store.lastAlert := by
  simp only [prune]

/-- The candidates against the store. Follows `attention.rs:365–412`; the outcome is none where
`publish` returns early. -/
def consumeAll (store : Store) (storageId : String) (candidates : List Signal) (now : DateTime) :
    Option Consumed :=
  let pruned := store.prune now
  if !pruned.watermarks.contains (digest storageId) && pruned.watermarks.size ≥ MAX_SESSIONS then
    none
  else
    let watermark := pruned.watermarks[digest storageId]?
    let c := candidates.foldl (consume storageId watermark now) ⟨pruned, none⟩
    some ⟨c.store.trim, c.alert⟩

/-- `publish`, `attention.rs:351–424`: what was consumed, and the file afterwards. -/
def Inner.publish (inner : Inner) (file : Option Store) (access : Access) (storageId : String)
    (candidates : List Signal) (now : DateTime) :
    Except String (Option Consumed × Option Store) := do
  let store ← loadLocked file access now
  require (store.preferences == inner.store.preferences) ERROR
  match consumeAll store storageId candidates now with
  | none => return (none, file)
  | some c =>
      if c.store.seen = store.seen then return (some c, file)
      else
        require access.writable ERROR
        return (some c, some c.store)

/-- The newest alerts. Follows `attention.rs:417–422`. -/
def pushAlert (alerts : List Alert) (alert : Alert) : List Alert :=
  let alerts := alerts ++ [alert]
  if alerts.length > MAX_ALERTS then alerts.tail else alerts

/-! ### Observing -/

/-- The last of the greatest elements, as `Iterator::max_by_key` finds it. -/
def lastMax {α : Type} (le : α → α → Bool) (items : List α) : Option α :=
  items.foldl (fun best item ↦
    match best with
    | none => some item
    | some top => if le top item then some item else some top) none

/-- The first of the least elements, as `Iterator::min_by_key` finds it. -/
def firstMin {α : Type} (le : α → α → Bool) (items : List α) : Option α :=
  items.foldl (fun best item ↦
    match best with
    | none => some item
    | some top => if le top item then some top else some item) none

/-- The session is watched. Follows `attention.rs:278–285`. -/
def Inner.watches (inner : Inner) (session : Session) : Bool :=
  inner.available && !inner.store.preferences.categories.isEmpty && !session.archived &&
    session.sourceAvailability == .present &&
      (inner.store.preferences.providers.isEmpty ||
        inner.store.preferences.providers.contains session.harness)

/-- The observation of a session. Follows `attention.rs:295–305`. -/
def observationOf (session : Session) (latest : Signal) : Observation where
  sessionRef := digest (effectiveStorageId session)
  provider := session.harness
  state := latest.state
  observedState := latest.state
  observedAt := latest.time
  source := latest.source
  stale := false
  isPartial := session.turns.length > 50 || session.toolObservations.length > 200

/-- An observation replaces an older one; the oldest of too many is dropped. Follows
`attention.rs:306–322`. -/
def recordObservation (observations : ExtTreeMap String Observation) (storageId : String)
    (observation : Observation) : ExtTreeMap String Observation :=
  let observations :=
    if observations[storageId]?.all (·.observedAt ≤ observation.observedAt) then
      observations.insert storageId observation
    else observations
  if observations.size > MAX_SESSIONS then
    match firstMin (fun a b ↦ decide (a.2.observedAt ≤ b.2.observedAt)) observations.toList with
    | some oldest => observations.erase oldest.1
    | none => observations
  else observations

/-- A signal which may raise an alert. Follows `attention.rs:328–338`. -/
def Inner.isCandidate (inner : Inner) (now : DateTime) (signal : Signal) : Bool :=
  let prefs := inner.store.preferences
  inner.armedAt ≤ signal.time && signal.time ≤ now &&
    decide (now.signedDurationSince signal.time ≤ seconds prefs.staleAfterSeconds) &&
      prefs.categories.contains signal.category &&
        (signal.toolKind.isNone || prefs.toolKind.isNone || prefs.toolKind == signal.toolKind)

/-- What `observe` does to a process and the file, and the signal of the alert which it raises. -/
structure Observed where
  inner : Inner
  file : Option Store
  alert : Option Signal

section Observe

variable (display : DateTime → String)

/-- The candidates of a session. Follows `attention.rs:326–339`. -/
def Inner.candidates (inner : Inner) (session : Session) (now : DateTime) : List Signal :=
  (signals display session).filter (inner.isCandidate now)

/-- The candidates are published. Follows `attention.rs:340–349` and `416–423`. -/
def Inner.alertOn (inner : Inner) (file : Option Store) (access : Access) (session : Session)
    (now : DateTime) : Observed :=
  let storageId := effectiveStorageId session
  let candidates := inner.candidates display session now
  if candidates.isEmpty then ⟨inner, file, none⟩
  else
    match inner.publish file access storageId candidates now with
    | .error _ => ⟨{ inner with available := false, alerts := [] }, file, none⟩
    | .ok (none, file) => ⟨inner, file, none⟩
    | .ok (some c, file) =>
        let alerts := match c.alert with
          | some signal => pushAlert inner.alerts (alertOf storageId session.harness signal)
          | none => inner.alerts
        ⟨{ inner with store := c.store, alerts }, file, c.alert⟩

/-- `observe`, `attention.rs:275–350`. -/
def Inner.observe (inner : Inner) (file : Option Store) (access : Access) (session : Session)
    (now : DateTime) (liveAppend : Bool) : Observed :=
  if inner.watches session then
    match lastMax Signal.le ((signals display session).filter (·.time ≤ now)) with
    | none => ⟨inner, file, none⟩
    | some latest =>
        let inner := { inner with
          observations := recordObservation inner.observations (effectiveStorageId session)
            (observationOf session latest) }
        if liveAppend then inner.alertOn display file access session now
        else ⟨inner, file, none⟩
  else ⟨inner, file, none⟩

end Observe

/-! ### The snapshot -/

/-- `Snapshot`, `attention.rs:121–127`. -/
structure Snapshot where
  preferences : Preferences
  available : Bool
  observations : List Observation
  alerts : List Alert
deriving Repr, DecidableEq

/-- The file is read again. Follows `attention.rs:427–445`. -/
def Inner.reload (inner : Inner) (file : Option Store) (readable : Bool) (now : DateTime) : Inner :=
  match load file readable now with
  | .error _ => { inner with available := false, alerts := [] }
  | .ok store =>
      if store.preferences ≠ inner.store.preferences then
        { inner with store, observations := ∅, alerts := [], armedAt := now }
      else { inner with store }

/-- A time is in the future or too old to be shown. Follows `attention.rs:458–460`. -/
def Inner.isStale (inner : Inner) (now observedAt : DateTime) : Bool :=
  now < observedAt ||
    decide (seconds inner.store.preferences.staleAfterSeconds < now.signedDurationSince observedAt)

/-- An observation as it is shown. Follows `attention.rs:456–465`. -/
def Inner.shown (inner : Inner) (now : DateTime) (observation : Observation) : Observation :=
  let stale := inner.isStale now observation.observedAt
  { observation with
    stale
    state := if stale || !inner.available then .unknown else observation.state }

/-- `snapshot`, `attention.rs:425–490`. -/
def Inner.snapshot (inner : Inner) (file : Option Store) (readable : Bool) (now : DateTime)
    (valid : String → Bool) : Inner × Snapshot :=
  let inner := inner.reload file readable now
  let validRefs := (inner.observations.toList.filter fun item ↦ valid item.1).map (·.2.sessionRef)
  (inner,
    { preferences := inner.store.preferences
      available := inner.available
      observations := (inner.observations.values.filter fun observation ↦
        validRefs.contains observation.sessionRef).map (inner.shown now)
      alerts :=
        if inner.available then
          inner.alerts.filter fun alert ↦
            validRefs.contains alert.sessionRef && !inner.isStale now alert.observedAt
        else [] })

/-! ### Runs -/

/-- A recorded fact: the session, the turn or call, and the category. -/
structure Fact where
  storageId : String
  subject : Subject
  category : EventKind
deriving Repr, DecidableEq

/-- The fact which a signal of a session records. -/
def factOf (storageId : String) (signal : Signal) : Fact :=
  ⟨storageId, signal.subject, signal.category⟩

/-- An alert which was raised: its fact, the time of its signal and the time of the clock. -/
structure Raised where
  fact : Fact
  time : DateTime
  now : DateTime
deriving Repr, DecidableEq

/-- The file, the processes which run, and every alert which was raised, in order. -/
structure System where
  file : Option Store
  processes : Nat → Option Inner
  raised : List Raised

/-- No process runs and no alert was raised. -/
def System.start (file : Option Store) : System :=
  ⟨file, fun _ ↦ none, []⟩

/-- A process starts, or an operation of a process. -/
inductive Action where
  | start (i : Nat) (now : DateTime) (readable : Bool)
  | preferences (i : Nat) (now : DateTime) (access : Access) (update : Preferences)
  | observe (i : Nat) (now : DateTime) (access : Access) (session : Session) (liveAppend : Bool)
  | snapshot (i : Nat) (now : DateTime) (readable : Bool) (valid : String → Bool)

namespace System

/-- A process takes its next state. -/
def set (s : System) (i : Nat) (inner : Inner) : System :=
  { s with processes := Function.update s.processes i (some inner) }

/-- What an observation of a process raised. -/
def raise (s : System) (session : Session) (now : DateTime) (alert : Option Signal) :
    List Raised :=
  s.raised ++ (alert.map fun signal ↦
    (⟨factOf (effectiveStorageId session) signal, signal.time, now⟩ : Raised)).toList

/-- One step. -/
def step (display : DateTime → String) (s : System) : Action → Option System
  | .start i now readable => some (s.set i (openService s.file readable now))
  | .preferences i now access update =>
      (s.processes i).map fun inner ↦
        match inner.preferences s.file access update now with
        | .error _ => s
        | .ok (inner, store) => { s with file := some store }.set i inner
  | .observe i now access session liveAppend =>
      (s.processes i).map fun inner ↦
        let observed := inner.observe display s.file access session now liveAppend
        { s with file := observed.file, raised := s.raise session now observed.alert }.set i
          observed.inner
  | .snapshot i now readable valid =>
      (s.processes i).map fun inner ↦ s.set i (inner.snapshot s.file readable now valid).1

end System

end AgentOdometer.Attention
