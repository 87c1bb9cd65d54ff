import AgentOdometer.Base.Checked
import AgentOdometer.Base.Machine
import AgentOdometer.Base.Text
import AgentOdometer.Lib.Table
import Mathlib.Data.List.Sort

/-!
# Private organization of sessions

The annotation tables of `history_organization.rs:62–81` and the three calls which write them
(`history_organization.rs:246–357,418–514`). A call is one immediate transaction: when a check
fails, nothing of it is written.
-/

namespace AgentOdometer.History

/-! ### Data -/

/-- `HumanOutcome`, `history_organization.rs:8–14`. -/
structure HumanOutcome where
  label : String
  repairMinutes : Option Nat
  firstPassAccepted : Option Bool
deriving Repr, DecidableEq

/-- `AnnotationIdentity`, `history_organization.rs:84–91`. -/
structure AnnotationIdentity where
  sessionKey : String
  fingerprint : String
  anchor : String
deriving Repr, DecidableEq

/-- The content of a revision column. SQLite turns a sum beyond `i64` into a floating point
number, which no longer reads as an integer. -/
inductive StoredRevision where
  | integer (value : Int)
  | real
deriving Repr, DecidableEq

/-- `revision+1`. -/
def StoredRevision.next : StoredRevision → StoredRevision
  | .integer value => if value = i64Max then .real else .integer (value + 1)
  | .real => .real

/-- A row of `session_annotations`. -/
structure AnnotationRow where
  sessionKey : String
  firstEventFingerprint : String
  anchor : String
  revision : StoredRevision
  pinned : Bool
  note : String
  outcome : Option HumanOutcome
deriving Repr, DecidableEq

/-- The primary key of `session_annotations`. -/
def AnnotationRow.key (row : AnnotationRow) : String × String :=
  (row.sessionKey, row.anchor)

/-- A row of `annotation_tags`. -/
structure AnnotationTag where
  sessionKey : String
  anchor : String
  label : String
deriving Repr, DecidableEq

/-- The annotation which a tag belongs to. -/
def AnnotationTag.key (tag : AnnotationTag) : String × String :=
  (tag.sessionKey, tag.anchor)

/-- The organization tables, with the `organization_revision` of `history_meta` and whether the
ledger is marked as recovered. -/
structure Organization where
  annotations : List AnnotationRow
  tags : List String
  annotationTags : List AnnotationTag
  revision : Nat
  recovered : Bool
deriving Repr, DecidableEq

/-- `SessionAnnotation` with its summary, `history_organization.rs:93–109`. -/
structure SessionAnnotation where
  identity : AnnotationIdentity
  revision : Int
  pinned : Bool
  note : String
  tags : List String
  outcome : Option HumanOutcome
  recoveryBackupUnrestored : Bool
deriving Repr, DecidableEq

/-- `AnnotationEdit`, `history_organization.rs:111–121`. -/
structure AnnotationEdit where
  identity : AnnotationIdentity
  revision : Int
  pinned : Bool
  note : String
  tags : List String
  outcome : Option HumanOutcome
deriving Repr, DecidableEq

/-- `RecordBookmark`, `history_organization.rs:123–129`. -/
structure RecordBookmark where
  identity : AnnotationIdentity
  revision : Int
  bookmarked : Bool
deriving Repr, DecidableEq

/-! ### Validation -/

/-- `HumanOutcome::validate`, `history_organization.rs:25–36`. -/
def HumanOutcome.validate (outcome : HumanOutcome) : Except String Unit :=
  require
    (!(outcome.label ∉ ["not_rated", "accepted", "rejected", "unresolved"] ||
      outcome.repairMinutes.any (525600 < ·) ||
      (outcome.firstPassAccepted = some true && outcome.label ≠ "accepted") ||
      (outcome.firstPassAccepted.isSome && outcome.label = "not_rated")))
    ("Use an explicit outcome, whole repair minutes up to 525600, and a first-pass report only " ++
      "for a rated task")

/-- `validate_label`, `history_organization.rs:177–186`. -/
def validateLabel (value : String) : Except String Unit :=
  require
    (!(Text.trim value ≠ value || value.isEmpty || 80 < value.utf8ByteSize ||
      value.toList.any Text.isControl))
    "Use a nonempty label of at most 80 bytes without control characters"

/-- `validate_tag`, `history_organization.rs:193–199`. -/
def validateTag (value : String) : Except String Unit := do
  validateLabel value
  require (',' ∉ value.toList) "Tag labels cannot contain commas"

/-- `validate_identity`, `history_organization.rs:201–210`. -/
def validateIdentity (identity : AnnotationIdentity) : Except String Unit :=
  require
    (!(identity.sessionKey.isEmpty || 1024 < identity.sessionKey.utf8ByteSize ||
      1024 < identity.fingerprint.utf8ByteSize || 1024 < identity.anchor.utf8ByteSize))
    "Invalid organization target"

/-- `checked_add(1)` on an `i64`. -/
def checkedNext (revision : Int) (message : String) : Except String Int :=
  if revision = i64Max then .error message else .ok (revision + 1)

namespace Organization

/-! ### Reading -/

/-- The stored row of an annotation. -/
def row? (store : Organization) (key : String × String) : Option AnnotationRow :=
  Table.lookup AnnotationRow.key key store.annotations

/-- The labels of an annotation, `ORDER BY label`. -/
def tagsOf (store : Organization) (key : String × String) : List String :=
  ((store.annotationTags.filter (·.key = key)).map (·.label)).insertionSort (· ≤ ·)

/-- The stored revision of an annotation; one without a row has revision 0. -/
def revisionOf (store : Organization) (key : String × String) : StoredRevision :=
  ((store.row? key).map (·.revision)).getD (.integer 0)

/-- A revision column read as an `i64`. -/
def readRevision : StoredRevision → Except String Int
  | .integer value => .ok value
  | .real => .error "Invalid column type Real at index: 0, name: revision"

/-- `read_outcome`, `history_organization.rs:47–60`. -/
def readOutcome (store : Organization) (key : String × String) :
    Except String (Option HumanOutcome) :=
  match (store.row? key).bind (·.outcome) with
  | none => .ok none
  | some outcome => do
      outcome.validate
      return some outcome

/-- The fingerprint of the session is still that of the identity. -/
def requireFingerprint (sessions : String → Option String) (identity : AnnotationIdentity) :
    Except String Unit :=
  match sessions identity.sessionKey with
  | none => .error "Session no longer exists"
  | some fingerprint =>
      require (fingerprint = identity.fingerprint)
        "Session identity changed; reload organization before editing"

/-- `read_annotation`, `history_organization.rs:246–281`. `sessions` is the fingerprint column of
`durable_sessions`. -/
def readAnnotation (sessions : String → Option String) (store : Organization)
    (identity : AnnotationIdentity) : Except String SessionAnnotation := do
  requireFingerprint sessions identity
  let key := (identity.sessionKey, identity.anchor)
  let revision ← readRevision (store.revisionOf key)
  let outcome ← store.readOutcome key
  return {
    identity, revision, outcome
    pinned := ((store.row? key).map (·.pinned)).getD false
    note := ((store.row? key).map (·.note)).getD ""
    tags := store.tagsOf key
    recoveryBackupUnrestored := store.recovered }

/-! ### Writing -/

/-- `changed_annotations`, `history_organization.rs:188–191`. -/
def changedAnnotations (store : Organization) : Organization :=
  { store with revision := store.revision + 1 }

/-- `INSERT … ON CONFLICT(session_key,anchor) DO UPDATE`. -/
def upsertRow (store : Organization) (merge : AnnotationRow → AnnotationRow → AnnotationRow)
    (row : AnnotationRow) : Organization :=
  { store with annotations := Table.upsert AnnotationRow.key merge store.annotations row }

/-- The two insertions of one label. Follows `history_organization.rs:457–467`. -/
def addTag (key : String × String) (store : Organization) (label : String) : Organization :=
  let tag : AnnotationTag := { sessionKey := key.1, anchor := key.2, label }
  { store with
    tags := if label ∈ store.tags then store.tags else store.tags ++ [label]
    annotationTags :=
      if tag ∈ store.annotationTags then store.annotationTags else store.annotationTags ++ [tag] }

/-- Replace the labels of an annotation. Follows `history_organization.rs:453–467`. -/
def replaceTags (store : Organization) (key : String × String) (labels : List String) :
    Organization :=
  labels.foldl (addTag key)
    { store with annotationTags := store.annotationTags.filter (·.key ≠ key) }

/-- The outcome of an edit, when it carries one. Follows `history_organization.rs:449–452`. -/
def recordOutcome (store : Organization) (key : String × String) (outcome : Option HumanOutcome) :
    Organization :=
  match outcome with
  | none => store
  | some outcome =>
      { store with
        annotations := Table.update AnnotationRow.key key
          (fun row ↦ { row with outcome := some outcome }) store.annotations }

/-- The row which an edit inserts. -/
def editedRow (edit : AnnotationEdit) (revision : Int) : AnnotationRow where
  sessionKey := edit.identity.sessionKey
  firstEventFingerprint := edit.identity.fingerprint
  anchor := edit.identity.anchor
  revision := .integer revision
  pinned := edit.pinned
  note := edit.note
  outcome := none

/-- The outcome of an edit, when it carries one. Follows `history_organization.rs:429–431`. -/
def validateOutcome : Option HumanOutcome → Except String Unit
  | none => .ok ()
  | some outcome => outcome.validate

/-- The checks of an edit ahead of its transaction. Follows `history_organization.rs:419–437`. -/
def validateEdit (edit : AnnotationEdit) : Except String Unit := do
  validateIdentity edit.identity
  require (0 ≤ edit.revision) "Invalid organization revision"
  require (!(32768 < edit.note.utf8ByteSize || 32 < edit.tags.length))
    "Note or tag selection is too large"
  edit.tags.forM validateTag
  validateOutcome edit.outcome
  require edit.identity.anchor.isEmpty "Record bookmarks require source-anchor validation"

/-- The writes of an edit. Follows `history_organization.rs:448–467`. -/
def writeEdit (store : Organization) (edit : AnnotationEdit) (revision : Int) : Organization :=
  let key := (edit.identity.sessionKey, edit.identity.anchor)
  let store := store.upsertRow
    (fun new old ↦ { old with revision := new.revision, pinned := new.pinned, note := new.note })
    (editedRow edit revision)
  (store.recordOutcome key edit.outcome).replaceTags key edit.tags

/-- `edit_annotation`, `history_organization.rs:418–476`. -/
def editAnnotation (sessions : String → Option String) (store : Organization)
    (edit : AnnotationEdit) : Except String ( SessionAnnotation × Organization) := do
  validateEdit edit
  let current ← store.readAnnotation sessions edit.identity
  require (current.revision = edit.revision) "Organization changed; reload before saving"
  let revision ← checkedNext edit.revision "Organization revision exhausted"
  let store := store.writeEdit edit revision
  require (store.tags.length ≤ 1000) "At most 1000 tag labels are supported"
  let result ← store.readAnnotation sessions edit.identity
  return (result, store.changedAnnotations)

/-- The row which a bookmark inserts. -/
def bookmarkRow (edit : RecordBookmark) (revision : Int) : AnnotationRow where
  sessionKey := edit.identity.sessionKey
  firstEventFingerprint := edit.identity.fingerprint
  anchor := edit.identity.anchor
  revision := .integer revision
  pinned := edit.bookmarked
  note := ""
  outcome := none

/-- The write of a bookmark. Follows `history_organization.rs:342`. -/
def writeBookmark (store : Organization) (edit : RecordBookmark) (revision : Int) : Organization :=
  store.upsertRow (fun new old ↦ { old with revision := new.revision, pinned := new.pinned })
    (bookmarkRow edit revision)

/-- The bookmarks of a session. -/
def bookmarkCount (store : Organization) (sessionKey : String) : Nat :=
  store.annotations.countP fun row ↦ row.sessionKey = sessionKey && row.anchor ≠ ""

/-- `edit_record_bookmark`, `history_organization.rs:323–357`. -/
def editRecordBookmark (sessions : String → Option String) (store : Organization)
    (edit : RecordBookmark) : Except String (RecordBookmark × Organization) := do
  validateIdentity edit.identity
  require (!(edit.identity.anchor.isEmpty || edit.revision < 0)) "Invalid record bookmark"
  let current ← store.readAnnotation sessions edit.identity
  require (current.revision = edit.revision) "Bookmark changed; reload before saving"
  require (!(!edit.bookmarked && current.revision = 0))
    "Bookmark no longer exists; reload bookmarks"
  let revision ← checkedNext edit.revision "Bookmark revision exhausted"
  let store := store.writeBookmark edit revision
  require (store.bookmarkCount edit.identity.sessionKey ≤ 500)
    "At most 500 record bookmarks are supported per session"
  return ({ edit with revision }, store.changedAnnotations)

/-- The revisions of the annotations with a label. Follows `history_organization.rs:500`. -/
def bumpLabelled (store : Organization) (label : String) : Organization :=
  { store with
    annotations := Table.updateWhere
      (fun row ↦ store.annotationTags.any fun tag ↦ tag.key = row.key && tag.label = label)
      (fun row ↦ { row with revision := row.revision.next }) store.annotations }

/-- `UPDATE organization_tags`, which cascades to the annotations. -/
def renameTag (store : Organization) (label replacement : String) : Except String Organization :=
  if label ∈ store.tags then do
    require (replacement ∉ store.tags) "UNIQUE constraint failed: organization_tags.label"
    return { store with
      tags := store.tags.map fun tag ↦ if tag = label then replacement else tag
      annotationTags := store.annotationTags.map fun tag ↦
        if tag.label = label then { tag with label := replacement } else tag }
  else .ok store

/-- `DELETE FROM organization_tags`, which cascades to the annotations. -/
def deleteTag (store : Organization) (label : String) : Organization :=
  { store with
    tags := store.tags.filter (· ≠ label)
    annotationTags := store.annotationTags.filter (·.label ≠ label) }

/-- The new label, when there is one. Follows `history_organization.rs:492–494`. -/
def validateReplacement : Option String → Except String Unit
  | none => .ok ()
  | some replacement => validateTag replacement

/-- Rename or delete a label. Follows `history_organization.rs:501–510`. -/
def replaceTag (store : Organization) (label : String) :
    Option String → Except String Organization
  | none => .ok (store.deleteTag label)
  | some replacement =>
      if replacement ≠ label then store.renameTag label replacement else .ok store

/-- `change_organization_tag`, `history_organization.rs:490–514`. -/
def changeOrganizationTag (store : Organization) (label : String) (replacement : Option String) :
    Except String Organization := do
  validateTag label
  validateReplacement replacement
  let store ← (store.bumpLabelled label).replaceTag label replacement
  return store.changedAnnotations

end Organization

end AgentOdometer.History
