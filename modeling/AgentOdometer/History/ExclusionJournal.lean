import AgentOdometer.Lib.Lines
import AgentOdometer.Lib.Transition
import Mathlib.Tactic.Linarith

/-!
# The exclusion journal

The append-only file beside the ledger which keeps the identities of purged sessions
(`history_lifecycle.rs:261–380`): its writer, its reader, and what a crash leaves of a record.
A file which does not exist is read as an empty one.
-/

namespace AgentOdometer.History

open Transition

/-- `ExclusionRecord`, `history_lifecycle.rs:261–267`. An identity is a session key, an identity
key and a first-event fingerprint. -/
structure ExclusionRecord where
  version : Nat
  purgedAtMs : Int
  identities : List (String × String × String)
deriving Repr, DecidableEq

/-- Why a journal is not read or written. -/
inductive JournalError where
  | journalTooLarge
  | tailTooLarge
  | batchTooLarge
  | journalWouldExceed
  | recordTooLarge
  | unverified
  | unsupportedVersion
  | tooManyIdentities
deriving Repr, DecidableEq

/-- The text of an error. Follows `history_lifecycle.rs:295,314,327,330,348,360,366,369,373`. -/
def JournalError.message : JournalError → String
  | .journalTooLarge => "purge exclusion journal exceeds its safe size limit"
  | .tailTooLarge => "incomplete purge exclusion tail exceeds its safe size limit"
  | .batchTooLarge => "purge exclusion batch exceeds its safe size limit"
  | .journalWouldExceed => "purge exclusion journal would exceed its safe size limit"
  | .recordTooLarge => "purge exclusion record exceeds its safe size limit"
  | .unverified =>
      "purge exclusions could not be verified; recovery cannot safely reimport sources"
  | .unsupportedVersion =>
      "unsupported purge exclusion version; update Odometer before recovery"
  | .tooManyIdentities => "purge exclusion identity limit exceeded"

/-- The JSON text of a record and its reader, `serde_json::to_vec` and `from_slice`. -/
structure JournalCodec where
  encode : ExclusionRecord → List UInt8
  decode : List UInt8 → Option ExclusionRecord

/-- The line feed. -/
def newline : UInt8 :=
  10

/-- The largest record with its line feed. -/
def maxRecordBytes : Nat :=
  32 * 1024 * 1024

/-- The largest journal. -/
def maxJournalBytes : Nat :=
  256 * 1024 * 1024

/-- The part of the tail which is searched at a time. -/
def tailChunkBytes : Nat :=
  32 * 1024

theorem tailChunkBytes_pos : 0 < tailChunkBytes := by
  decide

/-- The most identities of a journal. -/
def maxIdentities : Nat :=
  500000

namespace JournalCodec

variable (codec : JournalCodec)

/-- The text of a record is one line and is read back, as compact JSON is. -/
structure ReadsBack (record : ExclusionRecord) : Prop where
  oneLine : newline ∉ codec.encode record
  roundTrip : codec.decode (codec.encode record ++ [newline]) = some record

/-- A record as it stands in the journal. -/
def line (record : ExclusionRecord) : List UInt8 :=
  codec.encode record ++ [newline]

/-- The loop of `read_exclusions`, from a position of the file and a number of identities.
Follows `history_lifecycle.rs:352–378`. -/
def readRecords (identities : Nat) (bytes : List UInt8) :
    Except JournalError (List ExclusionRecord) :=
  let raw := Lines.readUntil newline (bytes.take (maxRecordBytes + 1))
  if raw = [] then .ok []
  else if maxRecordBytes < raw.length then .error .recordTooLarge
  else if raw.getLast? ≠ some newline then .ok []
  else
    match codec.decode raw with
    | none => .error .unverified
    | some record =>
        if record.version ≠ 1 then .error .unsupportedVersion
        else if maxIdentities < identities + record.identities.length then
          .error .tooManyIdentities
        else (record :: ·) <$> readRecords (identities + record.identities.length)
          (bytes.drop raw.length)
termination_by bytes.length
decreasing_by
  exact Lines.length_drop_readUntil_lt ‹¬raw = []›

/-- `read_exclusions`, `history_lifecycle.rs:337–380`: the records in their order. -/
def readExclusions (file : List UInt8) : Except JournalError (List ExclusionRecord) :=
  if maxJournalBytes < file.length then .error .journalTooLarge
  else codec.readRecords 0 file

/-- The search for the end of the last complete record, backwards in chunks. Follows
`history_lifecycle.rs:303–319`. -/
def searchTail (chunkBytes limit : Nat) (hchunk : 0 < chunkBytes) (file : List UInt8)
    (complete : Nat) : Except JournalError Nat :=
  if complete = 0 then .ok 0
  else
    let first := complete - chunkBytes
    match Lines.lastIndex newline ((file.drop first).take (complete - first)) with
    | some index => .ok (first + index + 1)
    | none =>
        if limit < file.length - first then .error .tailTooLarge
        else searchTail chunkBytes limit hchunk file first
termination_by complete
decreasing_by omega

/-- The length of the complete records. -/
def completeLength (file : List UInt8) : Except JournalError Nat :=
  searchTail tailChunkBytes maxRecordBytes tailChunkBytes_pos file file.length

/-- The complete records, which the file is cut down to. Follows
`history_lifecycle.rs:288–320`. -/
def completePart (file : List UInt8) : Except JournalError (List UInt8) :=
  match codec.readExclusions file with
  | .error e => .error e
  | .ok _ =>
      if maxJournalBytes < file.length then .error .journalTooLarge
      else file.take <$> completeLength file

/-- The text of a record which may be appended. Follows `history_lifecycle.rs:321–331`. -/
def appendable (complete : List UInt8) (record : ExclusionRecord) :
    Except JournalError (List UInt8) :=
  let raw := codec.encode record
  if maxRecordBytes ≤ raw.length then .error .batchTooLarge
  else if maxJournalBytes < complete.length + raw.length + 1 then .error .journalWouldExceed
  else .ok raw

/-- `write_exclusions`, `history_lifecycle.rs:279–335`: its outcome and the file it leaves. -/
def writeExclusions (file : List UInt8) (identities : List (String × String × String))
    (purgedAtMs : Int) : Except JournalError Unit × List UInt8 :=
  if identities = [] then (.ok (), file)
  else
    match codec.completePart file with
    | .error e => (.error e, file)
    | .ok complete =>
        match codec.appendable complete ⟨1, purgedAtMs, identities⟩ with
        | .error e => (.error e, complete)
        | .ok raw => (.ok (), complete ++ raw ++ [newline])

/-- The file when the process dies with the given number of bytes of the record written. -/
def interruptedWrite (file : List UInt8) (identities : List (String × String × String))
    (purgedAtMs : Int) (written : Nat) : List UInt8 :=
  if identities = [] then file
  else
    match codec.completePart file with
    | .error _ => file
    | .ok complete =>
        match codec.appendable complete ⟨1, purgedAtMs, identities⟩ with
        | .error _ => complete
        | .ok raw => complete ++ raw.take written

end JournalCodec

/-! ### Runs -/

/-- A journal file with the records of the calls which returned. -/
structure Journal where
  file : List UInt8
  written : List ExclusionRecord

/-- A call of the writer, or one which the process does not survive. -/
inductive JournalStep where
  | write (identities : List (String × String × String)) (purgedAtMs : Int)
  | crash (identities : List (String × String × String)) (purgedAtMs : Int) (bytes : Nat)

/-- The record which a step appends. -/
def JournalStep.record : JournalStep → ExclusionRecord
  | .write identities purgedAtMs => ⟨1, purgedAtMs, identities⟩
  | .crash identities purgedAtMs _ => ⟨1, purgedAtMs, identities⟩

namespace Journal

variable (codec : JournalCodec)

/-- No journal. -/
def empty : Journal :=
  ⟨[], []⟩

/-- A call which returned `Ok` with identities to exclude has written its record. -/
def step (journal : Journal) : JournalStep → Option Journal
  | .write identities purgedAtMs =>
      let (outcome, file) := codec.writeExclusions journal.file identities purgedAtMs
      match outcome with
      | .error _ => some { journal with file }
      | .ok () =>
          if identities = [] then some { journal with file }
          else some ⟨file, journal.written ++ [⟨1, purgedAtMs, identities⟩]⟩
  | .crash identities purgedAtMs bytes =>
      some { journal with
        file := codec.interruptedWrite journal.file identities purgedAtMs bytes }

/-- The number of identities of the records. -/
def identityCount (records : List ExclusionRecord) : Nat :=
  (records.map (·.identities.length)).sum

end Journal

end AgentOdometer.History
