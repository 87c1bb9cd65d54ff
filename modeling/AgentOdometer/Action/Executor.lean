import AgentOdometer.Action.Journal
import AgentOdometer.Lib.Program

/-!
# The action executor

The transactions on a target as programs over the file system
(`action_executor.rs:132–234`, `315–336`, `363–516`, `634–828`). A call is one file operation; the
events of an action are read in one call, as nothing but the target changes between their reads.
The journal directory is the private one which the executor creates.
-/

namespace AgentOdometer.Action

/-- What is at the path of a target. -/
inductive TargetFile where
  | missing
  | special
  | regular (bytes : Bytes)
deriving Repr, DecidableEq

/-- The files of one action in a journal directory. -/
structure Entry where
  events : Events
  backup : Option Bytes

def Entry.empty : Entry :=
  ⟨Events.none, none⟩

/-- The file system. The last three fields are its history: what others have written to a file, the
newest first; whether they have since the executor last read it; and whether the executor has
replaced what it had not read. -/
structure World where
  files : String → TargetFile
  journals : String → Option (String → Entry)
  edits : String → List TargetFile
  unseen : String → Bool
  lost : String → Bool

namespace World

variable (w : World) (target : ResolvedTarget)

/-- The files of an action. -/
def entry (id : String) : Entry :=
  (w.journals target.journal).elim .empty fun dir ↦ dir id

def hasJournal : Bool :=
  (w.journals target.journal).isSome

def createJournal : World :=
  { w with
    journals := Function.update w.journals target.journal
      (some ((w.journals target.journal).getD fun _ ↦ .empty)) }

def setEntry (id : String) (e : Entry) : World :=
  { w with
    journals := Function.update w.journals target.journal
      (some (Function.update ((w.journals target.journal).getD fun _ ↦ .empty) id e)) }

/-- The executor has read the target. -/
def see : World :=
  { w with unseen := Function.update w.unseen target.file false }

def replace (bytes : Bytes) : World :=
  { w with
    files := Function.update w.files target.file (.regular bytes)
    lost := Function.update w.lost target.file
      (w.lost target.file || w.unseen target.file) }

/-- Another process writes a file. -/
def edit (file : String) (content : TargetFile) : World :=
  { w with
    files := Function.update w.files file content
    edits := Function.update w.edits file (content :: w.edits file)
    unseen := Function.update w.unseen file true }

end World

/-- A transaction. -/
abbrev Transaction := Program Unit World ActionError

namespace Transaction

/-- A read of the file system. -/
def read {α : Type} (f : World → Except ActionError α) : Transaction α :=
  Program.read () .io f

/-- A call which has its whole effect or none, also when it fails. -/
def write (act : World → Option World) : Transaction Unit :=
  Program.write () .io act fun n w ↦ if n = 0 then w else (act w).getD w

/-- A call which others do not see. -/
def stage : Transaction Unit :=
  read fun _ ↦ .ok ()

end Transaction

open Transaction

/-- `checked_target`, `action_executor.rs:132–160`, for a target whose directories are in place. -/
def checkedTarget (target : ResolvedTarget) (w : World) : Except ActionError Unit :=
  match w.files target.file with
  | .missing => .error .io
  | .special => .error .unsafeTarget
  | .regular bytes =>
      if bytes.length > maxTargetBytes then .error .unsafeTarget
      else if !isPlain target.redactedIdentity then .error .unsafeTarget
      else .ok ()

/-- `read_bounded_regular_file`. -/
def boundedFile (target : ResolvedTarget) (w : World) : Except ActionError Bytes :=
  match w.files target.file with
  | .regular bytes => if bytes.length > maxTargetBytes then .error .unsafeTarget else .ok bytes
  | _ => .error .unsafeTarget

/-- `read_target`, `action_executor.rs:230–234`. -/
def readTarget (target : ResolvedTarget) : Transaction Bytes := do
  read (checkedTarget target)
  .call () (fun w ↦ some (w.see target)) (fun _ w ↦ w) fun
    | none => .error .unsafeTarget
    | some w => .ofExcept (boundedFile target w)

/-- `ensure_journal_dir`, `action_executor.rs:162–203`. -/
def ensureJournalDir (target : ResolvedTarget) : Transaction Unit := do
  read (checkedTarget target)
  write fun w ↦ some (w.createJournal target)

/-- The record of an event, if it is present, must be valid. Follows
`action_executor.rs:462–467`. -/
def checkEvent (target : ResolvedTarget) (id : String) (events : Events) (suffix : Suffix) :
    Except ActionError Unit :=
  match events suffix with
  | none => .ok ()
  | some record => validateEvent target id suffix record

/-- `read_journal_events`, `action_executor.rs:315–336`, with `read_event`, `422–468`. -/
def journalEvents (target : ResolvedTarget) (id : String) (w : World) :
    Except ActionError Events :=
  match w.journals target.journal with
  | none => .ok Events.none
  | some dir =>
      match checkedTarget target w with
      | .error e => .error e
      | .ok () =>
          match journalSuffixes.forM (checkEvent target id (dir id).events) with
          | .error e => .error e
          | .ok () => .ok (dir id).events

def readJournalEvents (target : ResolvedTarget) (id : String) : Transaction Events :=
  if !validId id then .error .invalidJournal
  else read (journalEvents target id)

/-- `read_validated_journal`, `action_executor.rs:363–370`. -/
def readValidatedJournal (target : ResolvedTarget) (id : String) : Transaction Events := do
  let events ← readJournalEvents target id
  .ofExcept (validateJournal events)
  pure events

/-- `persist_noclobber` of an event. -/
def publish (target : ResolvedTarget) (id : String) (suffix : Suffix) (record : JournalRecord) :
    Transaction Unit :=
  write fun w ↦
    if w.hasJournal target && !(w.entry target id).events.has suffix then
      some (w.setEntry target id
        { w.entry target id with events := (w.entry target id).events.insert suffix record })
    else none

/-- `write_event`, `action_executor.rs:372–420`. The directory is synchronised last. -/
def writeEvent (target : ResolvedTarget) (id : String) (suffix : Suffix)
    (record : JournalRecord) : Transaction Unit := do
  .ofExcept (validateEvent target id suffix record)
  let events ← readJournalEvents target id
  .ofExcept (if events.isEmpty then .ok () else validateJournal events)
  if events.has suffix then .error .io
  else do
    .ofExcept (validateJournal (events.insert suffix record))
    if record.text.utf8ByteSize > maxJournalBytes then .error .invalidJournal
    else do
      ensureJournalDir target
      stage
      publish target id suffix record
      stage

section Hash

variable (sha256 : Bytes → String)

/-- `read_backup`, `action_executor.rs:470–503`. -/
def readBackup (target : ResolvedTarget) (record : JournalRecord) : Transaction Bytes :=
  if !validId record.actionId then .error .invalidJournal
  else do
    ensureJournalDir target
    read fun w ↦
      match (w.entry target record.actionId).backup with
      | none => .error .io
      | some bytes =>
          if bytes.length > maxTargetBytes then .error .invalidJournal
          else if sha256 bytes ≠ record.beforeSha256 then .error .invalidJournal
          else .ok bytes

/-- `atomic_replace`, `action_executor.rs:505–516`. -/
def atomicReplace (target : ResolvedTarget) (bytes : Bytes) : Transaction Unit :=
  if bytes.length > maxTargetBytes then .error .unsafeTarget
  else do
    read (checkedTarget target)
    stage
    write fun w ↦ some (w.replace target bytes)

/-- `private_new_file` of a backup. -/
def createBackup (target : ResolvedTarget) (id : String) : Transaction Unit :=
  write fun w ↦
    if w.hasJournal target && (w.entry target id).backup.isNone then
      some (w.setEntry target id { w.entry target id with backup := some [] })
    else none

/-- `write_all` of a backup, which may fail after a part of the bytes. -/
def fillBackup (target : ResolvedTarget) (id : String) (bytes : Bytes) : Transaction Unit :=
  Program.write () .io
    (fun w ↦ some (w.setEntry target id { w.entry target id with backup := some bytes }))
    fun n w ↦ w.setEntry target id { w.entry target id with backup := some (bytes.take n) }

/-- The record of an action which begins. Follows `action_executor.rs:676–686`. -/
def preparedRecord (target : ResolvedTarget) (sourceRevision expectedBefore : String)
    (replacement : Bytes) (id : String) : JournalRecord where
  version := journalVersion
  actionId := id
  actionVersion := actionVersion
  redactedTarget := target.redactedIdentity
  sourceRevision := sourceRevision
  beforeSha256 := expectedBefore
  afterSha256 := sha256 replacement
  result := .prepared
  undoState := .notApplied

/-- `apply_transaction_with_id`, `action_executor.rs:634–724`, from the prepared record on. -/
def applyPrepared (target : ResolvedTarget) (replacement : Bytes) (interruptAt : InterruptAt)
    (id : String) (record : JournalRecord) : Transaction String := do
  writeEvent target id .prepared record
  if interruptAt = .afterPrepared then .error .interrupted
  else do
    let current ← readTarget target
    if sha256 current ≠ record.beforeSha256 then do
      writeEvent target id .conflict
        { record with result := .conflict, undoState := .blockedExternalEdit }
      .error .conflict
    else do
      atomicReplace target replacement
      if interruptAt = .afterTargetReplace then .error .interrupted
      else do
        let written ← readTarget target
        if sha256 written ≠ record.afterSha256 then .error .conflict
        else do
          writeEvent target id .applied { record with result := .applied, undoState := .available }
          pure id

/-- `apply_transaction_with_id`, `action_executor.rs:634–724`. -/
def applyTransactionWithId (target : ResolvedTarget) (sourceRevision expectedBefore : String)
    (replacement : Bytes) (interruptAt : InterruptAt) (id : String) : Transaction String :=
  if !validId id then .error .invalidJournal
  else if !isPlain sourceRevision || decide (replacement.length > maxTargetBytes) ||
      !canonicalHash expectedBefore then .error .unsafeTarget
  else do
    let before ← readTarget target
    if sha256 before ≠ expectedBefore then .error .conflict
    else do
      ensureJournalDir target
      let existing ← readJournalEvents target id
      if !existing.isEmpty then do
        .ofExcept (validateJournal existing)
        .error .conflict
      else do
        createBackup target id
        fillBackup target id before
        applyPrepared sha256 target replacement interruptAt id
          (preparedRecord sha256 target sourceRevision expectedBefore replacement id)

/-- `undo_transaction`, `action_executor.rs:726–766`. -/
def undoTransaction (target : ResolvedTarget) (id : String) : Transaction Unit := do
  let journal ← readValidatedJournal target id
  match journal .prepared with
  | none => .error .invalidJournal
  | some prepared =>
      if journal.has .undone then .error .conflict
      else if !journal.has .applied then .error .invalidJournal
      else do
        let backup ← readBackup sha256 target prepared
        let current ← readTarget target
        if sha256 current ≠ prepared.afterSha256 then do
          writeEvent target id .undoConflict
            { prepared with result := .conflict, undoState := .blockedExternalEdit }
          .error .conflict
        else do
          atomicReplace target backup
          let written ← readTarget target
          if sha256 written ≠ prepared.beforeSha256 then .error .conflict
          else
            writeEvent target id .undone { prepared with result := .applied, undoState := .undone }

/-- `recover_transaction`, `action_executor.rs:768–828`. -/
def recoverTransaction (target : ResolvedTarget) (id : String) : Transaction Recovery := do
  let journal ← readValidatedJournal target id
  match journal .prepared with
  | none => .error .invalidJournal
  | some prepared => do
      let _ ← readBackup sha256 target prepared
      if journal.has .undone then pure .undone
      else if journal.has .conflict || journal.has .undoConflict then .error .conflict
      else if journal.has .aborted then pure .aborted
      else do
        let current ← readTarget target
        if sha256 current = prepared.beforeSha256 then
          if journal.has .applied then do
            writeEvent target id .undone
              { prepared with result := .applied, undoState := .undone }
            pure .undone
          else do
            writeEvent target id .aborted
              { prepared with result := .aborted, undoState := .notApplied }
            pure .aborted
        else if sha256 current = prepared.afterSha256 then
          if !journal.has .applied then do
            writeEvent target id .applied
              { prepared with result := .applied, undoState := .available }
            pure .applied
          else pure .applied
        else .error .conflict

end Hash

end AgentOdometer.Action
