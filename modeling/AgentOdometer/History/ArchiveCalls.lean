import AgentOdometer.History.AnnotationUpdates
import AgentOdometer.History.Lifecycle

/-!
# Runs of the archive

The calls of the ledger, its organization, its retention and its recovery as one step function
on the archive, and what each of them leaves of the sessions, the tombstones and the journal.
-/

namespace AgentOdometer.Ledger.HistoryStore

/-- `finish_scan`, `history_store.rs:1266–1282`. -/
def finishScan (store : HistoryStore) (generation : Int) : HistoryStore :=
  refreshMissing { store with
    locations := store.locations.map fun _ location ↦
      if location.seenGeneration < generation ∧ generation = store.scanGeneration then
        { location with present := false }
      else location }

end AgentOdometer.Ledger.HistoryStore

namespace AgentOdometer.History

open Ledger Transition

/-- A call of the archive. A purge may be one which the process does not survive; a recovery is
followed by the opening of what it leaves. -/
inductive ArchiveCall where
  | store (call : StoreCall)
  | beginScan
  | finishScan (generation : Int)
  | markPathMissing (path : String)
  | annotate (call : AnnotationCall)
  | reassignSessionProject (key projectKey : String)
  | clearSessionOverride (key : String)
  | setRetentionPolicy (policy : RetentionPolicy)
  | purge (preview : PurgePreview) (now : DateTime)
  | purgeInterrupted (preview : PurgePreview) (now : DateTime) (written : Option Nat)
  | recover (now : DateTime) (moved : Bool)

/-- A call which writes within the ledger and purges nothing. -/
def ArchiveCall.isPlain : ArchiveCall → Bool
  | .store .reopen | .purge _ _ | .purgeInterrupted _ _ _ | .recover _ _ => false
  | _ => true

theorem ArchiveCall.isPlain_or (call : ArchiveCall) :
    call.isPlain = true ∨ call = .store .reopen ∨ (∃ preview now, call = .purge preview now) ∨
      (∃ preview now written, call = .purgeInterrupted preview now written) ∨
      ∃ now moved, call = .recover now moved := by
  cases call with
  | store call =>
    by_cases hreopen : call = .reopen
    · subst hreopen
      exact .inr (.inl rfl)
    · left
      unfold isPlain
      cases call <;> first | rfl | exact absurd rfl hreopen
  | purge preview now => exact .inr (.inr (.inl ⟨preview, now, rfl⟩))
  | purgeInterrupted preview now written =>
    exact .inr (.inr (.inr (.inl ⟨preview, now, written, rfl⟩)))
  | recover now moved => exact .inr (.inr (.inr (.inr ⟨now, moved, rfl⟩)))
  | beginScan => exact .inl rfl
  | finishScan generation => exact .inl rfl
  | markPathMissing path => exact .inl rfl
  | annotate call => exact .inl rfl
  | reassignSessionProject key projectKey => exact .inl rfl
  | clearSessionOverride key => exact .inl rfl
  | setRetentionPolicy policy => exact .inl rfl

namespace Archive

/-- The fingerprint column of `durable_sessions`. -/
def fingerprintOf (store : HistoryStore) (key : String) : Option String :=
  (store.row? key).map (·.firstEventFingerprint)

/-- `ON UPDATE CASCADE` of the fingerprints of the annotations. -/
def cascadeFingerprints (store : HistoryStore) (organization : Organization) : Organization :=
  { organization with
    annotations := organization.annotations.map fun row ↦
      { row with
        firstEventFingerprint :=
          (fingerprintOf store row.sessionKey).getD row.firstEventFingerprint } }

/-- The archive after a call of the store other than opening it. -/
def callStore (codec : Codec) (archive : Archive) (call : StoreCall) : Archive :=
  let store := archive.store.call codec call
  { archive with store, organization := cascadeFingerprints store archive.organization }

/-- `reassign_session_project`, `history_store.rs:1505–1534`, with the project key it computes. -/
def reassignSessionProject (archive : Archive) (key projectKey : String) : Archive :=
  if (archive.store.row? key).isSome then
    { archive with
      projectOverrides := archive.projectOverrides.filter (·.1 ≠ key) ++ [(key, projectKey)] }
  else archive

section Step

variable (calendar : Calendar) (codec : Codec) (journalCodec : JournalCodec)

/-- The archive after a call. A ledger whose exclusions cannot be verified is not opened, and
there is no recovery beside an earlier one. -/
def step (archive : Archive) : ArchiveCall → Option Archive
  | .store .reopen => (archive.openStore journalCodec).toOption
  | .store call => some (archive.callStore codec call)
  | .beginScan => some { archive with store := archive.store.beginScan }
  | .finishScan generation => some { archive with store := archive.store.finishScan generation }
  | .markPathMissing path => some { archive with store := archive.store.markPathMissing path }
  | .annotate call =>
      some { archive with
        organization := archive.organization.call (fingerprintOf archive.store) call }
  | .reassignSessionProject key projectKey => some (archive.reassignSessionProject key projectKey)
  | .clearSessionOverride key =>
      some { archive with projectOverrides := archive.projectOverrides.filter (·.1 ≠ key) }
  | .setRetentionPolicy policy =>
      some ((archive.setRetentionPolicy policy).toOption.getD archive)
  | .purge preview now =>
      some (archive.purgeRetained calendar codec journalCodec preview now).2
  | .purgeInterrupted preview now written =>
      ((archive.interruptedPurge calendar codec journalCodec preview now written).openStore
        journalCodec).toOption
  | .recover now moved =>
      if archive.marker.isSome then none
      else ((archive.prepareRecovery now moved).openStore journalCodec).toOption

/-- The archives which a new installation reaches through calls that meet a condition. -/
def ReachableVia (ok : Archive → ArchiveCall → Prop) (archive : Archive) : Prop :=
  Reaches (step calendar codec journalCodec) ok newInstallation archive

end Step

end Archive

end AgentOdometer.History
