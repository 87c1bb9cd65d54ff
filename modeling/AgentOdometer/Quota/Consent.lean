import AgentOdometer.Base.Checked
import AgentOdometer.Base.Text
import AgentOdometer.Quota.LiveReading

/-!
# Consent to live readings

The consent file and the runtime of `LiveQuotaService` (`quota_accounts.rs:13–306`), and the
sections of its operations under the runtime's lock (`quota_accounts.rs:335–562`). A time of the
monotonic clock is a number of nanoseconds. What is written to the file is what is read back.
-/

namespace AgentOdometer.Quota

/-- `std::time::Instant`. -/
abbrev Instant : Type :=
  Nat

/-- `POLL_INTERVAL`, `quota_accounts.rs:13`. -/
def POLL_INTERVAL : Nat :=
  300 * 10 ^ 9

/-- `MAX_BACKOFF`, `quota_accounts.rs:14`. -/
def MAX_BACKOFF : Nat :=
  3600 * 10 ^ 9

/-- `CANDIDATE_TTL`, `quota_accounts.rs:15`. -/
def CANDIDATE_TTL : Nat :=
  300 * 10 ^ 9

/-- `MAX_ACCOUNTS`, `quota_accounts.rs:16`. -/
def MAX_ACCOUNTS : Nat :=
  8

/-! ### The file -/

/-- `ConsentFile`, `quota_accounts.rs:26–32`. -/
structure ConsentFile where
  version : Nat
  accounts : List QuotaAccountConsent
deriving Repr, DecidableEq

namespace ConsentFile

/-- The file which is not there. Follows `quota_accounts.rs:138–143`. -/
def empty : ConsentFile :=
  ⟨1, []⟩

/-- The consents which allow polling. -/
def enabledAccounts (file : ConsentFile) : List QuotaAccountConsent :=
  file.accounts.filter (·.enabled)

/-- Every account is disabled in memory. Follows `quota_accounts.rs:254–257`. -/
def disable (file : ConsentFile) : ConsentFile :=
  { file with accounts := file.accounts.map ({ · with enabled := false }) }

/-- The checks of one account apart from its uniqueness. Follows `quota_accounts.rs:118–123`. -/
def isValidAccount (account : QuotaAccountConsent) : Bool :=
  account.accountId ≠ "" && account.accountId.utf8ByteSize ≤ 256 &&
    !account.accountId.toList.any Text.isControl && Text.trim account.label ≠ "" &&
      account.label.utf8ByteSize ≤ 80 && !account.label.toList.any Text.isControl

/-- `validate_file`, `quota_accounts.rs:109–130`. -/
def validate (file : ConsentFile) : Except String Unit := do
  require (file.version == 1 && file.accounts.length ≤ MAX_ACCOUNTS &&
    file.enabledAccounts.length ≤ 1)
    "Live quota settings are unsupported; existing file preserved."
  require (file.accounts.all isValidAccount && (file.accounts.map (·.accountId)).Nodup)
    "Live quota settings are invalid; existing file preserved."

end ConsentFile

/-- The file which the instances share: its contents, and the error of reading it while it is
unreadable. -/
structure SharedFile where
  content : ConsentFile
  readError : Option String
deriving Repr, DecidableEq

/-- `read_file`, `quota_accounts.rs:131–158`. -/
def SharedFile.read (shared : SharedFile) : Except String ConsentFile :=
  match shared.readError with
  | some error => .error error
  | none => .ok shared.content

/-- `save_file`, `quota_accounts.rs:200–233`: `locked` is what creating the directory and taking
the lock answers, `written` what replacing the file does. -/
def saveFile (shared : SharedFile) (expected file : ConsentFile)
    (locked written : Except String Unit) : Except String SharedFile := do
  file.validate
  locked
  let current ← shared.read
  require (current == expected)
    "Live quota consent changed in another app; review it and retry."
  written
  return { shared with content := file }

/-- What a save compares and writes. -/
structure Save where
  expected : ConsentFile
  file : ConsentFile
deriving Repr, DecidableEq

/-! ### The runtime -/

/-- `Runtime`, `quota_accounts.rs:60–73`. The generation is the number of invalidations, which
the `u64` of the source holds modulo `2^64`. -/
structure Runtime where
  loaded : Bool
  file : ConsentFile
  durableFile : Option ConsentFile
  locallyPaused : Bool
  configurationError : Option String
  candidate : Option (DiscoveredQuotaAccount × Instant)
  generation : Nat
  busy : Bool
  nextPoll : Instant
  backoff : Nat
  reading : Option LiveQuotaReading
  error : Option LiveQuotaError
deriving DecidableEq

namespace Runtime

/-- `Runtime::default`, `quota_accounts.rs:74–93`. -/
def default (now : Instant) : Runtime :=
  { loaded := false
    file := .empty
    durableFile := none
    locallyPaused := false
    configurationError := none
    candidate := none
    generation := 0
    busy := false
    nextPoll := now
    backoff := POLL_INTERVAL
    reading := none
    error := none }

/-- `invalidate`, `quota_accounts.rs:274–281`. -/
def invalidate (runtime : Runtime) (now : Instant) : Runtime :=
  { runtime with
    generation := runtime.generation + 1
    reading := none
    error := none
    candidate := none
    nextPoll := now
    backoff := POLL_INTERVAL }

/-- The accounts are disabled in memory. Follows `quota_accounts.rs:254–257`. -/
def disable (runtime : Runtime) : Runtime :=
  { runtime with file := runtime.file.disable }

/-- `enforce_local_pause`, `quota_accounts.rs:266–273`. -/
def enforceLocalPause (runtime : Runtime) : Runtime :=
  if runtime.locallyPaused then runtime.disable else runtime

/-- A file which was read. Follows `quota_accounts.rs:241–249`. -/
def loadFile (runtime : Runtime) (file : ConsentFile) (now : Instant) : Runtime × Bool :=
  let fresh := !runtime.loaded || runtime.durableFile ≠ some file
  let runtime' :=
    if fresh then { runtime.invalidate now with file, durableFile := some file } else runtime
  ({ runtime' with configurationError := none },
    (fresh && runtime.loaded) || runtime.configurationError.isSome)

/-- A file which could not be read. Follows `quota_accounts.rs:250–260`. -/
def loadError (runtime : Runtime) (error : String) (now : Instant) : Runtime × Bool :=
  let fresh := !runtime.loaded || runtime.configurationError ≠ some error
  let runtime' := if fresh then (runtime.invalidate now).disable else runtime
  ({ runtime' with configurationError := some error }, fresh)

/-- What `load` does before the local pause. Follows `quota_accounts.rs:239–261`. -/
def loadRead (runtime : Runtime) (now : Instant) : Except String ConsentFile → Runtime × Bool
  | .ok file => runtime.loadFile file now
  | .error error => runtime.loadError error now

/-- `load`, `quota_accounts.rs:236–265`. -/
def load (runtime : Runtime) (read : Except String ConsentFile) (now : Instant) :
    Runtime × Bool :=
  let (runtime, changed) := runtime.loadRead now read
  ({ runtime.enforceLocalPause with loaded := true }, changed)

/-- `finish_read`, `quota_accounts.rs:282–306`. -/
def finishRead (runtime : Runtime) (generation : Nat)
    (result : Except LiveQuotaError LiveQuotaReading) (now : Instant) : Runtime :=
  if generation % 2 ^ 64 ≠ runtime.generation % 2 ^ 64 then { runtime with busy := false }
  else
    match result with
    | .ok reading =>
        { runtime with
          busy := false
          reading := some reading
          error := none
          backoff := POLL_INTERVAL
          nextPoll := now + POLL_INTERVAL }
    | .error error =>
        let backoff := min (runtime.backoff * 2) MAX_BACKOFF
        { runtime with
          busy := false
          reading := none
          error := some error
          backoff
          nextPoll := now + backoff }

/-- The check which each operation starts with. -/
def requireReadable (runtime : Runtime) : Except String Unit :=
  match runtime.configurationError with
  | some error => .error error
  | none => .ok ()

/-! ### Operations under the lock -/

/-- The first half of `identify`, `quota_accounts.rs:336–349`. -/
def identifyStart (runtime : Runtime) (read : Except String ConsentFile) (now : Instant) :
    Runtime × Except String Nat :=
  let runtime := (runtime.load read now).1
  match runtime.requireReadable with
  | .error error => (runtime, .error error)
  | .ok () =>
      if runtime.busy then (runtime, .error "A quota request is already running.")
      else ({ runtime with busy := true, candidate := none }, .ok runtime.generation)

/-- The second half of `identify`, `quota_accounts.rs:353–366`. -/
def identifyFinish (runtime : Runtime) (read : Except String ConsentFile) (now : Instant)
    (generation : Nat) (result : Except LiveQuotaError DiscoveredQuotaAccount) :
    Runtime × Except String DiscoveredQuotaAccount :=
  let runtime := { (runtime.load read now).1 with busy := false }
  if runtime.generation % 2 ^ 64 ≠ generation % 2 ^ 64 then
    (runtime, .error "Quota consent changed during this request.")
  else
    match result with
    | .ok account => ({ runtime with candidate := some (account, now) }, .ok account)
    | .error error => (runtime, .error error.code)

/-- The account was identified recently. Follows `quota_accounts.rs:375–377`. -/
def isCandidate (runtime : Runtime) (accountId : String) (now : Instant) : Bool :=
  runtime.candidate.any fun candidate ↦
    candidate.1.accountId == accountId && decide (now - candidate.2 ≤ CANDIDATE_TTL)

/-- The file with a new consent. Follows `quota_accounts.rs:381–395`. -/
def approvedFile (file : ConsentFile) (accountId label : String) (consentedAt : DateTime) :
    ConsentFile :=
  let others := file.accounts.filter (·.accountId ≠ accountId)
  ⟨1, others.map ({ · with enabled := false }) ++
    [⟨accountId, Text.trim label, consentedAt, true⟩]⟩

/-- The last file which was read. Follows `quota_accounts.rs:396–399` and `452–455`. -/
def saveOf (runtime : Runtime) (file : ConsentFile) : Except String Save :=
  match runtime.durableFile with
  | some expected => .ok ⟨expected, file⟩
  | none => .error "Live quota settings are unavailable."

/-- `approve` up to its save, `quota_accounts.rs:369–399`. -/
def approveStart (runtime : Runtime) (read : Except String ConsentFile) (now : Instant)
    (accountId label : String) (consentedAt : DateTime) : Runtime × Except String Save :=
  let runtime := (runtime.load read now).1
  (runtime, do
    runtime.requireReadable
    require (runtime.isCandidate accountId now)
      "Identify this account again before approving polling."
    runtime.saveOf (approvedFile runtime.file accountId label consentedAt))

/-- `approve` after its save, `quota_accounts.rs:400–406`. -/
def approveFinish (runtime : Runtime) (file : ConsentFile) (saved : Except String SharedFile)
    (now : Instant) : Runtime :=
  match saved with
  | .error _ => runtime
  | .ok _ =>
      { runtime with durableFile := some file, file, locallyPaused := false }.invalidate now

/-- The file after a change. Follows `quota_accounts.rs:429–443`. -/
def changedFile (file : ConsentFile) (accountId : String) (enabled revoke : Bool) :
    ConsentFile :=
  let accounts := file.accounts.map fun account ↦
    if account.accountId = accountId then { account with enabled := enabled && !revoke }
    else if enabled then { account with enabled := false }
    else account
  ⟨1, if revoke then accounts.filter (·.accountId ≠ accountId) else accounts⟩

/-- `change` up to its save, `quota_accounts.rs:410–455`. -/
def changeStart (runtime : Runtime) (read : Except String ConsentFile) (now : Instant)
    (accountId : String) (enabled revoke : Bool) : Runtime × Except String Save :=
  let runtime := (runtime.load read now).1
  match runtime.requireReadable with
  | .error error => (runtime, .error error)
  | .ok () =>
      if runtime.file.accounts.any (·.accountId == accountId) then
        let file := changedFile runtime.file accountId enabled revoke
        let runtime := (runtime.invalidate now).disable
        (runtime, runtime.saveOf file)
      else (runtime, .error "Account consent was not found.")

/-- `change` after its save, `quota_accounts.rs:456–472`. -/
def changeFinish (runtime : Runtime) (file : ConsentFile) (enabled revoke : Bool)
    (saved : Except String SharedFile) : Runtime :=
  match saved with
  | .error _ => { runtime with locallyPaused := true }
  | .ok _ =>
      enforceLocalPause { runtime with
        durableFile := some file
        file
        locallyPaused := runtime.locallyPaused && !(enabled && !revoke) }

/-- The first half of `poll`, `quota_accounts.rs:474–490`: the generation and the account of the
request, or whether the status changed. -/
def pollStart (runtime : Runtime) (read : Except String ConsentFile) (now : Instant) :
    Runtime × Except Bool (Nat × String) :=
  let (runtime, changed) := runtime.load read now
  if runtime.configurationError.isSome || runtime.busy || now < runtime.nextPoll then
    (runtime, .error changed)
  else
    match runtime.file.accounts.find? (·.enabled) with
    | none => (runtime, .error changed)
    | some account => ({ runtime with busy := true }, .ok (runtime.generation, account.accountId))

/-- The second half of `poll`, `quota_accounts.rs:494–497`. -/
def pollFinish (runtime : Runtime) (read : Except String ConsentFile) (now : Instant)
    (generation : Nat) (result : Except LiveQuotaError LiveQuotaReading) : Runtime :=
  (runtime.load read now).1.finishRead generation result now

/-! ### Status -/

/-- The reading of an account. Follows `quota_accounts.rs:508–511`. -/
def readingOf (runtime : Runtime) (consent : QuotaAccountConsent) : Option LiveQuotaReading :=
  runtime.reading.filter fun reading ↦
    consent.enabled && reading.accountId == consent.accountId

/-- Why an account shows no usage. Follows `quota_accounts.rs:530–544`. -/
def unavailableOf (runtime : Runtime) (consent : QuotaAccountConsent) (now : DateTime) :
    Option String :=
  let reading := runtime.readingOf consent
  if !consent.enabled then some "disabled"
  else
    match runtime.error with
    | some error => some error.code
    | none =>
        if reading.all (·.limitBuckets.isEmpty) then some "no_observation"
        else if reading.any (now < ·.observedAt) then some "clock_skew"
        else if reading.any (tenMinutes < now.signedDurationSince ·.observedAt) then
          some "stale_observation"
        else none

/-- One limit of an account. Follows `quota_accounts.rs:517–526`. -/
def bucketView (reading : LiveQuotaReading) (now : DateTime) (bucket : LiveQuotaBucket) :
    Option LiveQuotaBucketView :=
  (liveBucketSnapshot bucket reading.observedAt now).map fun snapshot ↦
    ⟨bucket.limitId, bucket.limitName, bucket.spendControlReached, snapshot⟩

/-- One account of the status. Follows `quota_accounts.rs:507–555`. -/
def accountView (runtime : Runtime) (now : DateTime) (consent : QuotaAccountConsent) :
    Option LiveQuotaAccountView := do
  let reading := runtime.readingOf consent
  let buckets ← (reading.toList.flatMap fun reading ↦
    reading.limitBuckets.map fun bucket ↦ (reading, bucket)).mapM fun item ↦
      bucketView item.1 now item.2
  let unavailable := runtime.unavailableOf consent now
  return {
    provider := "codex"
    consent
    observedAt := reading.map (·.observedAt)
    ordinaryUsageAllowed :=
      if unavailable.isNone then reading.bind (·.ordinaryUsageAllowed) else none
    buckets
    unavailable }

/-- `status`, `quota_accounts.rs:500–562`. -/
def status (runtime : Runtime) (read : Except String ConsentFile) (now : Instant)
    (utc : DateTime) : Option (Runtime × LiveQuotaStatus) := do
  let runtime := (runtime.load read now).1
  let accounts ← runtime.file.accounts.mapM (runtime.accountView utc)
  return (runtime, ⟨accounts, runtime.busy, runtime.configurationError⟩)

end Runtime

end AgentOdometer.Quota
