import AgentOdometer.Base.Checked
import AgentOdometer.Base.StableHash
import AgentOdometer.Base.Text
import AgentOdometer.Lib.Lines

/-!
# Transcript pages

One bounded read of a source file (`transcript.rs:11–14,37–104,505–761`): the checks on a request,
the scan over buffered chunks, and the page with its cursor. The file is its bytes; the JSON reader,
the views of a record and the encoded lengths are given from outside.
-/

namespace AgentOdometer.Transcript

open Text

/-- `MAX_PAGE_BYTES`, `transcript.rs:11`. -/
def maxPageBytes : Nat :=
  256 * 1024

/-- `MAX_RECORD_BYTES`, `transcript.rs:12`. -/
def maxRecordBytes : Nat :=
  64 * 1024

/-- `MAX_SCAN_BYTES`, `transcript.rs:13`. -/
def maxScanBytes : Nat :=
  1024 * 1024

/-- `MAX_RECORDS`, `transcript.rs:14`. -/
def maxRecordCount : Nat :=
  100

/-- The line feed. -/
def lineFeed : UInt8 :=
  10

/-- `TranscriptCursor`, `transcript.rs:37–46`. -/
structure TranscriptCursor where
  sessionId : String
  sourceId : String
  generation : String
  offset : Nat
  recordStart : Nat
  isPartial : Bool
deriving Repr, DecidableEq

/-- `TranscriptRequest`, `transcript.rs:48–56`. -/
structure TranscriptRequest where
  sessionId : String
  cursor : Option TranscriptCursor
  maxRecords : Option Nat
  maxBytes : Option Nat
  recordId : Option String
deriving Repr, DecidableEq

/-- The answers of `TranscriptAvailability` which this read gives, `transcript.rs:58–68`. -/
inductive TranscriptAvailability where
  | available
  | partially
  | cursorInvalid
deriving Repr, DecidableEq

/-- `TranscriptRecord`, `transcript.rs:70–82`, over the two views of a record. -/
structure TranscriptRecord (P C : Type) where
  id : String
  byteOffset : Nat
  byteLength : Nat
  rawJson : Option String
  kind : Option String
  messageId : Option String
  issue : Option String
  presentation : Option P
  contextEvidence : Option C

/-- `TranscriptPage`, `transcript.rs:84–93`. -/
structure TranscriptPage (P C : Type) where
  provider : Option String
  availability : TranscriptAvailability
  issues : List String
  records : List (TranscriptRecord P C)
  nextCursor : Option TranscriptCursor
  sourceComplete : Bool

/-- The JSON reader with its string members, `present` of `transcript_view.rs`, `project` of
`context_evidence.rs`, and the lengths which `serde_json::to_vec` gives. -/
structure Json (V P C : Type) where
  fromStr : String → Option V
  pointer : V → String → Option String
  present : V → P
  project : V → C
  pageBytes : TranscriptPage P C → Nat
  recordBytes : TranscriptRecord P C → Nat

/-- An open file under its source id. -/
structure Source where
  sourceId : String
  identity : String
  generation : String
  bytes : List UInt8

variable {V P C : Type}

/-- A page without records. Follows `transcript.rs:95–104`. -/
def emptyPage (availability : TranscriptAvailability) (issue : String) : TranscriptPage P C where
  provider := none
  availability := availability
  issues := [issue]
  records := []
  nextCursor := none
  sourceComplete := false

/-! ### Where a read starts -/

/-- A sequence split at its last separator, the part after it first. -/
def rsplitOnce (sep : Char) (xs : List Char) : Option (List Char × List Char) :=
  (Lines.lastIndex sep xs).map fun index ↦ (xs.drop (index + 1), xs.take index)

/-- The namespace and the offset text of a record id, as `rsplitn(3, ':')` parts them. -/
def anchorParts (anchor : String) : Option (String × String) :=
  (rsplitOnce ':' anchor.toList).bind fun parts ↦
    (rsplitOnce ':' parts.2).map fun inner ↦ (String.ofList inner.2, String.ofList inner.1)

/-- `str::parse::<u64>`. -/
def parseU64 (text : String) : Option Nat :=
  let digits := if text.toList.head? = some '+' then text.toList.drop 1 else text.toList
  let value := digits.foldl (fun n c ↦ n * 10 + (c.toNat - '0'.toNat)) 0
  if digits.isEmpty || digits.any (fun c ↦ !c.isDigit) || 2 ^ 64 ≤ value then none else some value

/-- The offset which a record id names. Follows `transcript.rs:522–543`. -/
def anchorOffset (source : Source) (request : TranscriptRequest) (anchor : String) :
    Except (TranscriptPage P C) Nat := do
  require (request.cursor.isNone && anchor.utf8ByteSize ≤ 1024)
    (emptyPage .cursorInvalid "invalid_record_anchor")
  let parts := anchorParts anchor
  let seek := (parts.bind fun parts ↦ parseU64 parts.2).filter (· ≤ source.bytes.length)
  require (parts.map Prod.fst == some (source.sourceId ++ ":" ++ source.identity) && seek.isSome)
    (emptyPage .cursorInvalid "record_anchor_changed")
  return seek.getD 0

/-- Follows `transcript.rs:544–558`. -/
def checkCursor (source : Source) (request : TranscriptRequest) (cursor : TranscriptCursor) :
    Except (TranscriptPage P C) Unit :=
  require (cursor.sessionId == request.sessionId && cursor.sourceId == source.sourceId &&
      cursor.generation == source.generation && cursor.offset ≤ source.bytes.length &&
      cursor.recordStart ≤ cursor.offset)
    (emptyPage .cursorInvalid "source_changed")

/-- The offset and the record start of a read without a cursor. -/
def anchored (source : Source) (request : TranscriptRequest) :
    Except (TranscriptPage P C) (Nat × Nat) :=
  match request.recordId with
  | none => .ok (0, 0)
  | some anchor => (anchorOffset source request anchor).map fun seek ↦ (seek, seek)

/-- The offset and the record start of a read. Follows `transcript.rs:520–558`. -/
def positioned (source : Source) (request : TranscriptRequest) :
    Except (TranscriptPage P C) (Nat × Nat) :=
  (anchored source request).bind fun start ↦
    match request.cursor with
    | none => .ok start
    | some cursor =>
        (checkCursor source request cursor).map fun _ ↦ (cursor.offset, cursor.recordStart)

/-- A record starts at the start of the file or after a line feed. Follows
`transcript.rs:559–569`. -/
def checkBoundary (source : Source) (start : Nat) : Except (TranscriptPage P C) Unit :=
  require (start == 0 || source.bytes[start - 1]? == some lineFeed)
    (emptyPage .cursorInvalid "invalid_boundary")

/-! ### One record -/

/-- `request.max_records`, `transcript.rs:572`. -/
def recordLimit (request : TranscriptRequest) : Nat :=
  max 1 (min (request.maxRecords.getD 50) maxRecordCount)

/-- `request.max_bytes`, `transcript.rs:573–576`. -/
def byteLimit (request : TranscriptRequest) : Nat :=
  max 4096 (min (request.maxBytes.getD (128 * 1024)) maxPageBytes)

/-- The text of a line with its value, where it is JSON. -/
def readJson (json : Json V P C) (line : List UInt8) : Option (String × V) :=
  (fromUtf8 line).bind fun text ↦ (json.fromStr text).map fun value ↦ (text, value)

/-- A string member, cut to 64 characters. -/
def textField (json : Json V P C) (parsed : Option V) (pointer : String) : Option String :=
  (parsed.bind fun value ↦ json.pointer value pointer).map fun text ↦
    String.ofList (text.toList.take 64)

/-- The record of a line which ends at `finish`; an oversized line has no body. Follows
`transcript.rs:658–694`. -/
def transcriptRecord (json : Json V P C) (source : Source) (start finish : Nat)
    (raw : List UInt8) (oversized : Bool) : TranscriptRecord P C :=
  let read := if oversized then none else readJson json raw
  let rawJson := read.map Prod.fst
  let parsed := read.map Prod.snd
  let anchor := fnv1a64 (utf8 (rawJson.getD source.generation))
  { id := source.sourceId ++ ":" ++ source.identity ++ ":" ++ toString start ++ ":" ++
      String.ofList (hexDigits 16 anchor)
    byteOffset := start
    byteLength := finish - start
    rawJson := rawJson
    kind := textField json parsed "/type"
    messageId :=
      (textField json parsed "/message/id").or <| (textField json parsed "/payload/id").or <|
        (textField json parsed "/uuid").or (textField json parsed "/id")
    issue :=
      if oversized then some "record_too_large"
      else if read.isNone then some "invalid_json" else none
    presentation := parsed.map json.present
    contextEvidence := parsed.map json.project }

/-- Follows `transcript.rs:712–715`. -/
def TranscriptRecord.withoutBody (record : TranscriptRecord P C) : TranscriptRecord P C :=
  { record with
    rawJson := none
    presentation := none
    contextEvidence := none
    issue := some "record_exceeds_page_limit" }

/-- An issue of a record becomes one of its page. Follows `transcript.rs:724–729`. -/
def TranscriptPage.note (page : TranscriptPage P C) : Option String → TranscriptPage P C
  | none => page
  | some issue =>
      { page with
        availability := .partially
        issues := if issue ∈ page.issues then page.issues else page.issues ++ [issue] }

/-! ### The scan -/

/-- The variables of the loop. -/
structure Scan (P C : Type) where
  offset : Nat
  start : Nat
  scanned : Nat
  raw : List UInt8
  oversized : Bool
  returned : Nat
  page : TranscriptPage P C

/-- What one iteration does: continue, leave the loop, or answer at once. -/
inductive Outcome (P C : Type) where
  | next (scan : Scan P C)
  | stop (scan : Scan P C)
  | answer (page : TranscriptPage P C)

/-- The page whose length is reserved. Follows `transcript.rs:594–619`. -/
def envelope (source : Source) (request : TranscriptRequest) : TranscriptPage P C where
  provider := some "claude_code"
  availability := .cursorInvalid
  issues := ["earlier_records_omitted", "incomplete_trailing_record", "record_too_large",
    "invalid_json", "record_exceeds_page_limit", "oversized_record_continues",
    "source_location_limit", "earlier_records_not_inspected"]
  records := []
  sourceComplete := false
  nextCursor := some {
    sessionId := request.sessionId
    sourceId := source.sourceId
    generation := source.generation
    offset := 2 ^ 64 - 1
    recordStart := 2 ^ 64 - 1
    isPartial := false }

/-- The page before the first record. Follows `transcript.rs:577–592`. -/
def firstPage (request : TranscriptRequest) (offset : Nat) : TranscriptPage P C :=
  let omitted := request.cursor.any TranscriptCursor.isPartial
  let skipped := request.recordId.isSome && 0 < offset
  { provider := none
    availability := if omitted || skipped then .partially else .available
    issues :=
      (if omitted then ["earlier_records_omitted"] else []) ++
        if skipped then ["earlier_records_not_inspected"] else []
    records := []
    nextCursor := none
    sourceComplete := false }

/-- The variables before the loop. -/
def Scan.initial (json : Json V P C) (source : Source) (request : TranscriptRequest)
    (offset start : Nat) : Scan P C where
  offset := offset
  start := start
  scanned := 0
  raw := []
  oversized := start < offset
  returned := json.pageBytes (envelope source request)
  page := firstPage request offset

/-- What `fill_buf` offers at an offset: at least one byte unless the file ends there. -/
def fillBuf (source : Source) (available : Nat → Nat) (offset : Nat) : List UInt8 :=
  (source.bytes.drop offset).take (available offset + 1)

/-- The end of the file is reached. Follows `transcript.rs:631–639`. -/
def Scan.atEnd (scan : Scan P C) : Scan P C :=
  if scan.start < scan.offset then
    { scan with
      page := { scan.page with
        availability := .partially
        issues := scan.page.issues ++ ["incomplete_trailing_record"] } }
  else { scan with page := { scan.page with sourceComplete := scan.page.issues.isEmpty } }

/-- A chunk is consumed. Follows `transcript.rs:646–654`. -/
def Scan.consume (scan : Scan P C) (chunk : List UInt8) : Scan P C :=
  let fits := !scan.oversized && scan.raw.length + chunk.length ≤ maxRecordBytes
  { scan with
    raw := if fits then scan.raw ++ chunk else []
    oversized := !fits
    offset := scan.offset + chunk.length
    scanned := scan.scanned + chunk.length }

/-- The record joins the page. Follows `transcript.rs:724–733`. -/
def Scan.push (scan : Scan P C) (record : TranscriptRecord P C) (bytes : Nat) : Scan P C :=
  let page := scan.page.note record.issue
  { scan with
    returned := scan.returned + (bytes + 1)
    page := { page with records := page.records ++ [record] }
    start := scan.offset
    raw := []
    oversized := false }

/-- A line is complete. Follows `transcript.rs:658–733`. -/
def Scan.finishLine (json : Json V P C) (source : Source) (request : TranscriptRequest)
    (scan : Scan P C) : Outcome P C :=
  let record :=
    transcriptRecord json source scan.start scan.offset scan.raw scan.oversized
  let bytes := json.recordBytes record
  if scan.page.records.isEmpty && request.recordId.any (· ≠ record.id) then
    .answer (emptyPage .cursorInvalid "record_anchor_changed")
  else if scan.returned + bytes ≤ byteLimit request then .next (scan.push record bytes)
  else if !scan.page.records.isEmpty then .stop { scan with offset := scan.start }
  else if scan.returned + json.recordBytes record.withoutBody ≤ byteLimit request then
    .next (scan.push record.withoutBody (json.recordBytes record.withoutBody))
  else .answer (emptyPage .partially "page_budget_too_small")

/-- The part of a buffer which one iteration takes: up to its first line feed and up to the
bound of the scan. Follows `transcript.rs:640–645`. -/
def Scan.chunkOf (scan : Scan P C) (buffer : List UInt8) : List UInt8 :=
  buffer.take (min (Lines.readUntil lineFeed buffer).length (maxScanBytes - scan.scanned))

/-- One iteration of the loop. Follows `transcript.rs:630–734`. -/
def Scan.step (json : Json V P C) (source : Source) (request : TranscriptRequest)
    (available : Nat → Nat) (scan : Scan P C) : Outcome P C :=
  let buffer := fillBuf source available scan.offset
  if buffer = [] then .stop scan.atEnd
  else
    let chunk := scan.chunkOf buffer
    if chunk.getLast? = some lineFeed then (scan.consume chunk).finishLine json source request
    else .next (scan.consume chunk)

theorem Scan.chunkOf_ne_nil {scan : Scan P C} {buffer : List UInt8}
    (hbound : scan.scanned < maxScanBytes) (hbuffer : buffer ≠ []) : scan.chunkOf buffer ≠ [] := by
  have hread : Lines.readUntil lineFeed buffer ≠ [] := by
    rwa [Ne, Lines.readUntil_eq_nil_iff]
  have hpos : 0 < (Lines.readUntil lineFeed buffer).length := List.length_pos_iff.mpr hread
  rw [Scan.chunkOf, Ne, List.take_eq_nil_iff]
  simp only [hbuffer, or_false]
  omega

theorem Scan.scanned_of_finishLine {json : Json V P C} {source : Source}
    {request : TranscriptRequest} {scan scan' : Scan P C}
    (h : scan.finishLine json source request = .next scan') :
    scan'.scanned = scan.scanned := by
  unfold Scan.finishLine at h
  simp only at h
  split at h
  · cases h
  · split at h
    · cases h
      rfl
    · split at h
      · cases h
      · split at h
        · cases h
          rfl
        · cases h

/-- Every iteration which continues has consumed something. -/
theorem Scan.scanned_lt_of_step {json : Json V P C} {source : Source}
    {request : TranscriptRequest} {available : Nat → Nat} {scan scan' : Scan P C}
    (hbound : scan.scanned < maxScanBytes)
    (h : scan.step json source request available = .next scan') :
    scan.scanned < scan'.scanned := by
  unfold Scan.step at h
  simp only at h
  split at h
  · cases h
  · have hchunk := Scan.chunkOf_ne_nil hbound ‹_›
    have hpos := List.length_pos_iff.mpr hchunk
    split at h
    · rw [Scan.scanned_of_finishLine h]
      exact Nat.lt_add_of_pos_right hpos
    · cases h
      exact Nat.lt_add_of_pos_right hpos

/-- The loop. Follows `transcript.rs:629–734`. -/
def Scan.run (json : Json V P C) (source : Source) (request : TranscriptRequest)
    (available : Nat → Nat) (scan : Scan P C) : Except (TranscriptPage P C) (Scan P C) :=
  if _ : scan.scanned < maxScanBytes ∧ scan.page.records.length < recordLimit request then
    match _ : scan.step json source request available with
    | .next scan' => scan'.run json source request available
    | .stop scan' => .ok scan'
    | .answer page => .error page
  else .ok scan
termination_by maxScanBytes - scan.scanned
decreasing_by
  have hlt : scan.scanned < scan'.scanned := Scan.scanned_lt_of_step (And.left ‹_›) ‹_›
  omega

/-! ### The page -/

/-- The cursor of the next page. Follows `transcript.rs:742–749`. -/
def Scan.cursor (source : Source) (request : TranscriptRequest) (scan : Scan P C) :
    TranscriptCursor where
  sessionId := request.sessionId
  sourceId := source.sourceId
  generation := source.generation
  offset := scan.offset
  recordStart := scan.start
  isPartial := scan.page.availability == .partially

/-- The page with its cursor. Follows `transcript.rs:741–752`. -/
def Scan.close (source : Source) (request : TranscriptRequest) (scan : Scan P C) :
    TranscriptPage P C :=
  if scan.offset < source.bytes.length then
    { scan.page with nextCursor := some (scan.cursor source request) }
  else if scan.offset = scan.start then
    { scan.page with sourceComplete := scan.page.issues.isEmpty }
  else scan.page

/-- An oversized line goes on after this page. Follows `transcript.rs:753–759`. -/
def TranscriptPage.continued (page : TranscriptPage P C) (oversized : Bool) :
    TranscriptPage P C :=
  if oversized && page.nextCursor.isSome then
    { page with
      availability := .partially
      issues := page.issues ++ ["oversized_record_continues"]
      nextCursor := page.nextCursor.map fun cursor ↦ { cursor with isPartial := true } }
  else page

/-- A read from an offset inside the record which starts at `start`. Follows
`transcript.rs:620–760`; `generationAfter` is the generation of the file at the end. -/
def readFrom (json : Json V P C) (source : Source) (request : TranscriptRequest)
    (available : Nat → Nat) (generationAfter : String) (offset start : Nat) :
    Except (TranscriptPage P C) (TranscriptPage P C) := do
  require (json.pageBytes (envelope source request) < byteLimit request)
    (emptyPage .partially "page_budget_too_small")
  let scan ← (Scan.initial json source request offset start).run json source request available
  require (generationAfter == source.generation)
    (emptyPage .cursorInvalid "source_changed_during_read")
  return (scan.close source request).continued scan.oversized

/-- The page or the answer which takes its place. -/
def settled : Except (TranscriptPage P C) (TranscriptPage P C) → TranscriptPage P C
  | .ok page => page
  | .error page => page

/-- `read_page_inner`, `transcript.rs:505–761`. -/
def readPageInner (json : Json V P C) (source : Source) (request : TranscriptRequest)
    (expectedGeneration : Option String) (available : Nat → Nat) (generationAfter : String) :
    TranscriptPage P C :=
  settled do
    require (!expectedGeneration.any (· ≠ source.generation))
      (emptyPage .cursorInvalid "source_changed_during_verification")
    let (offset, start) ← positioned source request
    checkBoundary source start
    readFrom json source request available generationAfter offset start

end AgentOdometer.Transcript
