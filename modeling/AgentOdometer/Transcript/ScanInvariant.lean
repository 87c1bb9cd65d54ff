import AgentOdometer.Transcript.Page

/-!
# The scan of a page

What holds of the loop's variables after every iteration: the records of the page tile the file
from the start of the read to the current record, and the bytes since then are inside one line.
The lengths of the buffered chunks do not matter.
-/

namespace AgentOdometer.Transcript

open Text Lines

variable {V P C : Type} (json : Json V P C) (source : Source) (request : TranscriptRequest)
  (offset₀ start₀ : Nat)

/-! ### The record of a line -/

/-- A record leaves room for the envelope of the page. -/
def Fits (record : TranscriptRecord P C) : Prop :=
  json.pageBytes (envelope source request) + json.recordBytes record ≤ byteLimit request

instance (record : TranscriptRecord P C) : Decidable (Fits json source request record) :=
  inferInstanceAs (Decidable (_ ≤ _))

/-- The record with the body of a line, where the body can be read. -/
def fullRecord (start : Nat) (line : List UInt8) : TranscriptRecord P C :=
  transcriptRecord json source start (start + line.length) line false

/-- Whether the body of the line at `start` is given up: the read starts inside it, or it is
too long. -/
def isOversized (start length : Nat) : Bool :=
  (start == start₀ && start₀ < offset₀) || maxRecordBytes < length

/-- What a page which is read from `offset₀` inside the record at `start₀` returns for a line. -/
def lineRecord (start : Nat) (line : List UInt8) : TranscriptRecord P C :=
  let record := transcriptRecord json source start (start + line.length) line
    (isOversized offset₀ start₀ start line.length)
  if Fits json source request record then record else record.withoutBody

variable {json source request offset₀ start₀}
variable {start finish : Nat} {line raw raw' : List UInt8}

theorem readJson_eq_some {text : String} {value : V} (h : readJson json line = some (text, value)) :
    fromUtf8 line = some text ∧ json.fromStr text = some value := by
  obtain ⟨text', htext, hvalue⟩ := Option.bind_eq_some_iff.mp h
  obtain ⟨value', hvalue, hpair⟩ := Option.map_eq_some_iff.mp hvalue
  cases hpair
  exact ⟨htext, hvalue⟩

/-- An oversized line keeps nothing of what was read. -/
theorem transcriptRecord_oversized :
    transcriptRecord json source start finish raw true =
      transcriptRecord json source start finish raw' true :=
  rfl

theorem rawJson_transcriptRecord {oversized : Bool} :
    (transcriptRecord json source start finish raw oversized).rawJson =
      if oversized then none else (readJson json raw).map Prod.fst := by
  cases oversized <;> rfl

theorem issue_transcriptRecord {oversized : Bool} :
    (transcriptRecord json source start finish raw oversized).issue = none ↔
      (transcriptRecord json source start finish raw oversized).rawJson.isSome := by
  rw [rawJson_transcriptRecord]
  cases oversized with
  | true => simp [transcriptRecord]
  | false => cases hread : readJson json raw <;> simp [transcriptRecord, hread]

theorem byteOffset_lineRecord :
    (lineRecord json source request offset₀ start₀ start line).byteOffset = start := by
  unfold lineRecord
  simp only
  split <;> rfl

theorem byteLength_lineRecord :
    (lineRecord json source request offset₀ start₀ start line).byteLength = line.length := by
  have hlength : start + line.length - start = line.length := Nat.add_sub_cancel_left start _
  unfold lineRecord
  simp only
  split <;> exact hlength

/-- A record has an issue exactly when it has no body. -/
theorem issue_lineRecord :
    (lineRecord json source request offset₀ start₀ start line).issue = none ↔
      (lineRecord json source request offset₀ start₀ start line).rawJson.isSome := by
  unfold lineRecord
  simp only
  split
  · exact issue_transcriptRecord
  · simp [TranscriptRecord.withoutBody]

/-- The budget of a page is no issue of a record. -/
theorem issue_lineRecord_ne :
    (lineRecord json source request offset₀ start₀ start line).issue ≠
      some "page_budget_too_small" := by
  unfold lineRecord
  simp only
  split
  · unfold transcriptRecord
    simp only
    split
    · decide
    · split <;> decide
  · exact fun h ↦ absurd (Option.some.inj h) (by decide)

/-- The body of a record is its line. -/
theorem utf8_of_rawJson_lineRecord {text : String}
    (h : (lineRecord json source request offset₀ start₀ start line).rawJson = some text) :
    utf8 text = line := by
  unfold lineRecord at h
  simp only at h
  split at h
  · rw [rawJson_transcriptRecord] at h
    split at h
    · cases h
    · obtain ⟨⟨text', value⟩, hread, rfl⟩ := Option.map_eq_some_iff.mp h
      exact fromUtf8_eq_some (readJson_eq_some hread).1
  · cases h

/-- An oversized line has no body. -/
theorem rawJson_lineRecord_of_oversized (h : isOversized offset₀ start₀ start line.length = true) :
    (lineRecord json source request offset₀ start₀ start line).rawJson = none := by
  unfold lineRecord
  rw [h]
  simp only
  split
  · rw [rawJson_transcriptRecord, if_pos rfl]
  · rfl

/-- A line which is not oversized and whose record fits is returned with its body. -/
theorem lineRecord_eq_fullRecord (h : isOversized offset₀ start₀ start line.length = false)
    (hfits : Fits json source request (fullRecord json source start line)) :
    lineRecord json source request offset₀ start₀ start line =
      fullRecord json source start line := by
  unfold lineRecord
  rw [h]
  exact if_pos hfits

/-! ### The invariant -/

variable (json source request offset₀ start₀)

/-- The position of the loop: what was read of the current line. -/
structure Scan.Reading (scan : Scan P C) : Prop where
  start_le : scan.start ≤ scan.offset
  offset_le : scan.offset ≤ source.bytes.length
  offset_eq : scan.offset = offset₀ + scan.scanned
  scanned_le : scan.scanned ≤ maxScanBytes
  oversized : scan.oversized = isOversized offset₀ start₀ scan.start (scan.offset - scan.start)
  raw : scan.oversized = false → scan.raw = between source.bytes scan.start scan.offset

/-- The current line is not complete. -/
def Scan.Inside (scan : Scan P C) : Prop :=
  lineFeed ∉ between source.bytes scan.start scan.offset

/-- The page so far: its records up to the current one, and whether it lacks anything. -/
structure Scan.Collected (scan : Scan P C) : Prop where
  tiles : Tiles lineFeed source.bytes
    (fun pos line record ↦ record = lineRecord json source request offset₀ start₀ pos line)
    start₀ scan.page.records scan.start
  returned_le : json.pageBytes (envelope source request) ≤ scan.returned
  returned_eq : scan.page.records = [] → scan.returned = json.pageBytes (envelope source request)
  pushed : scan.page.records ≠ [] → offset₀ < scan.start
  issues : scan.page.issues = [] ↔
    request.cursor.any TranscriptCursor.isPartial = false ∧
      ∀ record ∈ scan.page.records, record.rawJson.isSome
  availability : scan.page.availability = .partially ↔ scan.page.issues ≠ []
  budgeted : "page_budget_too_small" ∉ scan.page.issues
  nextCursor : scan.page.nextCursor = none
  sourceComplete : scan.page.sourceComplete = false

variable {json source request offset₀ start₀} {scan scan' : Scan P C} {chunk : List UInt8}

theorem Scan.Collected.consume (h : scan.Collected json source request offset₀ start₀)
    (chunk : List UInt8) :
    (scan.consume chunk).Collected json source request offset₀ start₀ :=
  ⟨h.tiles, h.returned_le, h.returned_eq, h.pushed, h.issues, h.availability, h.budgeted,
    h.nextCursor, h.sourceComplete⟩

theorem Scan.Reading.consume (h : scan.Reading source offset₀ start₀)
    (hpart : chunk <+: source.bytes.drop scan.offset)
    (hbound : scan.scanned + chunk.length ≤ maxScanBytes) :
    (scan.consume chunk).Reading source offset₀ start₀ := by
  have hlength : chunk.length ≤ source.bytes.length - scan.offset := by
    have hle := hpart.length_le
    rwa [List.length_drop] at hle
  have hread : (between source.bytes scan.start scan.offset).length = scan.offset - scan.start :=
    length_between h.offset_le
  have hstart := h.start_le
  have hoffset := h.offset_le
  have hsize : scan.offset + chunk.length - scan.start =
      scan.offset - scan.start + chunk.length := by omega
  refine ⟨?_, ?_, ?_, hbound, ?_, ?_⟩
  · exact Nat.le_trans hstart (Nat.le_add_right _ _)
  · show scan.offset + chunk.length ≤ source.bytes.length
    omega
  · show scan.offset + chunk.length = offset₀ + (scan.scanned + chunk.length)
    have := h.offset_eq
    omega
  · show (!(!scan.oversized && scan.raw.length + chunk.length ≤ maxRecordBytes)) =
      isOversized offset₀ start₀ scan.start (scan.offset + chunk.length - scan.start)
    rw [hsize]
    cases hover : scan.oversized with
    | true =>
      have hold := h.oversized
      rw [hover] at hold
      simp only [isOversized, Bool.not_true, Bool.false_and, Bool.not_false] at hold ⊢
      rw [eq_comm, Bool.or_eq_true, decide_eq_true_eq] at hold ⊢
      exact hold.imp_right fun hlt ↦ Nat.lt_add_right _ hlt
    | false =>
      have hold := h.oversized
      rw [hover, eq_comm, isOversized, Bool.or_eq_false_iff] at hold
      rw [h.raw hover, hread, isOversized, hold.1, Bool.not_false, Bool.true_and, Bool.false_or,
        ← decide_not]
      simp
  · intro hfits
    have hfits : (!scan.oversized && decide (scan.raw.length + chunk.length ≤ maxRecordBytes)) =
        true := by simpa [Scan.consume] using hfits
    show (if (!scan.oversized && decide (scan.raw.length + chunk.length ≤ maxRecordBytes)) = true
      then scan.raw ++ chunk else []) = between source.bytes scan.start (scan.offset + chunk.length)
    rw [if_pos hfits, ← between_append_part hstart hpart, h.raw]
    simpa using (Bool.and_eq_true_iff.mp hfits).1

/-- A chunk without a line feed stays inside the line. -/
theorem Scan.Inside.consume (h : scan.Inside source) (hle : scan.start ≤ scan.offset)
    (hpart : chunk <+: source.bytes.drop scan.offset) (hchunk : lineFeed ∉ chunk) :
    (scan.consume chunk).Inside source := by
  show lineFeed ∉ between source.bytes scan.start (scan.offset + chunk.length)
  rw [← between_append_part hle hpart, List.mem_append, not_or]
  exact ⟨h, hchunk⟩

/-- A chunk which ends with a line feed completes the line. -/
theorem Scan.Inside.isLine (h : scan.Inside source) (hle : scan.start ≤ scan.offset)
    (hpart : chunk <+: source.bytes.drop scan.offset) (hchunk : IsLine lineFeed chunk) :
    IsLine lineFeed (between source.bytes scan.start (scan.consume chunk).offset) := by
  show IsLine lineFeed (between source.bytes scan.start (scan.offset + chunk.length))
  obtain ⟨body, rfl, hbody⟩ := hchunk
  refine ⟨between source.bytes scan.start scan.offset ++ body, ?_, ?_⟩
  · rw [← between_append_part hle hpart, List.append_assoc]
  · rw [List.mem_append, not_or]
    exact ⟨h, hbody⟩

variable (json source request) in
/-- There is a line of the file whose record fits no page even without its body. -/
def Crowded : Prop :=
  ∃ (pos : Nat) (line : List UInt8) (oversized : Bool), IsLine lineFeed line ∧
    line <+: source.bytes.drop pos ∧
      ¬Fits json source request
        (transcriptRecord json source pos (pos + line.length) line oversized).withoutBody

/-! ### A complete line -/

section Note

variable {page : TranscriptPage P C} {issue : Option String}

theorem records_note : (page.note issue).records = page.records := by
  cases issue <;> rfl

theorem nextCursor_note : (page.note issue).nextCursor = page.nextCursor := by
  cases issue <;> rfl

theorem sourceComplete_note : (page.note issue).sourceComplete = page.sourceComplete := by
  cases issue <;> rfl

theorem issues_note : (page.note issue).issues = [] ↔ page.issues = [] ∧ issue = none := by
  cases issue with
  | none => simp [TranscriptPage.note]
  | some issue =>
    by_cases hmem : issue ∈ page.issues
    · simp [TranscriptPage.note, hmem, List.ne_nil_of_mem hmem]
    · simp [TranscriptPage.note, hmem]

theorem availability_note (h : page.availability = .partially ↔ page.issues ≠ []) :
    (page.note issue).availability = .partially ↔ (page.note issue).issues ≠ [] := by
  cases issue with
  | none => exact h
  | some issue =>
    refine iff_of_true rfl ?_
    rw [Ne, issues_note]
    exact fun hnone ↦ nomatch hnone.2

theorem notMem_issues_note {text : String} (h : text ∉ page.issues) (hissue : issue ≠ some text) :
    text ∉ (page.note issue).issues := by
  cases issue with
  | none => exact h
  | some issue =>
    by_cases hmem : issue ∈ page.issues
    · simpa [TranscriptPage.note, hmem] using h
    · have hne : text ≠ issue := fun heq ↦ hissue (congrArg some heq.symm)
      simp [TranscriptPage.note, hmem, h, hne]

end Note

/-- The record of the complete line joins the page. -/
theorem Scan.Collected.push {record : TranscriptRecord P C} {bytes : Nat}
    (h : scan.Collected json source request offset₀ start₀)
    (hreading : scan.Reading source offset₀ start₀)
    (hline : IsLine lineFeed (between source.bytes scan.start scan.offset))
    (hread : offset₀ < scan.offset)
    (hrecord : record = lineRecord json source request offset₀ start₀ scan.start
      (between source.bytes scan.start scan.offset)) :
    (scan.push record bytes).Collected json source request offset₀ start₀ := by
  have hle := hreading.start_le
  have hlength : (between source.bytes scan.start scan.offset).length = scan.offset - scan.start :=
    length_between hreading.offset_le
  have hfinish : scan.start + (between source.bytes scan.start scan.offset).length =
    scan.offset := by
    omega
  have hrecords : (scan.push record bytes).page.records = scan.page.records ++ [record] := by
    show (scan.page.note record.issue).records ++ [record] = scan.page.records ++ [record]
    rw [records_note]
  refine ⟨?_, ?_, ?_, fun _ ↦ hread, ?_, availability_note h.availability,
    notMem_issues_note h.budgeted ?_, ?_, ?_⟩
  · rw [hrecords]
    have hsnoc := h.tiles.snoc hline (List.take_prefix _ _) hrecord
    rwa [hfinish] at hsnoc
  · exact Nat.le_trans h.returned_le (Nat.le_add_right _ _)
  · rw [hrecords]
    exact fun hnil ↦ absurd hnil (List.append_ne_nil_of_right_ne_nil _ (List.cons_ne_nil _ _))
  · rw [hrecords]
    show (scan.page.note record.issue).issues = [] ↔ _
    rw [issues_note, h.issues, List.forall_mem_append, List.forall_mem_singleton, and_assoc]
    have hissue : record.issue = none ↔ record.rawJson.isSome := by
      rw [hrecord]
      exact issue_lineRecord
    rw [hissue]
  · rw [hrecord]
    exact issue_lineRecord_ne
  · show (scan.page.note record.issue).nextCursor = none
    rw [nextCursor_note]
    exact h.nextCursor
  · show (scan.page.note record.issue).sourceComplete = false
    rw [sourceComplete_note]
    exact h.sourceComplete

/-- After a line the loop is at the start of the next one. -/
theorem Scan.Reading.push {record : TranscriptRecord P C} {bytes : Nat}
    (h : scan.Reading source offset₀ start₀) (hstart : start₀ ≤ offset₀)
    (hread : offset₀ < scan.offset) :
    (scan.push record bytes).Reading source offset₀ start₀ := by
  refine ⟨Nat.le_refl _, h.offset_le, h.offset_eq, h.scanned_le, ?_, ?_⟩
  · show false = isOversized offset₀ start₀ scan.offset (scan.offset - scan.offset)
    have hne : (scan.offset == start₀) = false := by
      rw [beq_eq_false_iff_ne]
      omega
    rw [isOversized, hne, Nat.sub_self]
    simp
  · intro _
    exact (between_self source.bytes scan.offset).symm

/-- The record which the loop builds for a complete line, before the budget is looked at. -/
theorem Scan.Reading.transcriptRecord_eq (h : scan.Reading source offset₀ start₀) :
    transcriptRecord json source scan.start scan.offset scan.raw scan.oversized =
      transcriptRecord json source scan.start
        (scan.start + (between source.bytes scan.start scan.offset).length)
        (between source.bytes scan.start scan.offset)
        (isOversized offset₀ start₀ scan.start
          (between source.bytes scan.start scan.offset).length) := by
  have hle := h.start_le
  have hlength : (between source.bytes scan.start scan.offset).length = scan.offset - scan.start :=
    length_between h.offset_le
  rw [hlength, Nat.add_sub_cancel' hle, ← h.oversized]
  cases hover : scan.oversized with
  | true => rfl
  | false => rw [h.raw hover]

/-- A complete line joins the page, is left to the next page, or does not fit any page. -/
theorem Scan.finishLine_cases (hreading : scan.Reading source offset₀ start₀)
    (hcollected : scan.Collected json source request offset₀ start₀)
    (hline : IsLine lineFeed (between source.bytes scan.start scan.offset))
    (hstart : start₀ ≤ offset₀) (hread : offset₀ < scan.offset)
    (hanchor : request.recordId = none) :
    (∃ record bytes, scan.finishLine json source request = .next (scan.push record bytes) ∧
        (scan.push record bytes).Reading source offset₀ start₀ ∧
        (scan.push record bytes).Collected json source request offset₀ start₀) ∨
      (scan.page.records ≠ [] ∧
        scan.finishLine json source request = .stop { scan with offset := scan.start }) ∨
      (Crowded json source request ∧ scan.finishLine json source request =
        .answer (emptyPage .partially "page_budget_too_small")) := by
  generalize hbuilt : transcriptRecord json source scan.start scan.offset scan.raw
    scan.oversized = built
  have hlineRecord : lineRecord json source request offset₀ start₀ scan.start
      (between source.bytes scan.start scan.offset) =
        if Fits json source request built then built else built.withoutBody := by
    rw [lineRecord, ← hreading.transcriptRecord_eq, hbuilt]
  have hreturned := hcollected.returned_le
  unfold Scan.finishLine
  rw [hbuilt, hanchor]
  simp only [Option.any_none, Bool.and_false, Bool.false_eq_true, if_false]
  by_cases hfits : scan.returned + json.recordBytes built ≤ byteLimit request
  · refine .inl ⟨built, json.recordBytes built, if_pos hfits, hreading.push hstart hread,
      hcollected.push hreading hline hread ?_⟩
    have hroom : Fits json source request built := by
      unfold Fits
      omega
    rw [hlineRecord, if_pos hroom]
  rw [if_neg hfits]
  by_cases hrecords : scan.page.records = []
  · have hfull : ¬Fits json source request built := by
      rwa [Fits, ← hcollected.returned_eq hrecords]
    rw [if_neg (by simp [hrecords])]
    by_cases hrest : scan.returned + json.recordBytes built.withoutBody ≤ byteLimit request
    · refine .inl ⟨built.withoutBody, json.recordBytes built.withoutBody, if_pos hrest,
        hreading.push hstart hread, hcollected.push hreading hline hread ?_⟩
      rw [hlineRecord, if_neg hfull]
    · refine .inr (.inr ⟨⟨scan.start, between source.bytes scan.start scan.offset,
        isOversized offset₀ start₀ scan.start
          (between source.bytes scan.start scan.offset).length,
        hline, List.take_prefix _ _, ?_⟩, if_neg hrest⟩)
      rwa [← hreading.transcriptRecord_eq, hbuilt, Fits, ← hcollected.returned_eq hrecords]
  · exact .inr (.inl ⟨hrecords, if_pos (by simp [hrecords])⟩)

/-! ### The loop -/

variable (json source request offset₀ start₀)

/-- What holds between two iterations. -/
structure Scan.Going (scan : Scan P C) : Prop where
  reading : scan.Reading source offset₀ start₀
  inside : scan.Inside source
  collected : scan.Collected json source request offset₀ start₀

/-- How the loop ends: at the bound of the scan, with enough records, before a line which does
not fit any more, or at the end of the file. -/
inductive Scan.Ended : Scan P C → Prop
  | bound {scan : Scan P C} (hgoing : scan.Going json source request offset₀ start₀)
      (hscanned : scan.scanned = maxScanBytes) : Ended scan
  | full {scan : Scan P C} (hgoing : scan.Going json source request offset₀ start₀)
      (hrecords : recordLimit request ≤ scan.page.records.length) : Ended scan
  | deferred {scan : Scan P C} (hreading : scan.Reading source offset₀ start₀)
      (hcollected : scan.Collected json source request offset₀ start₀)
      (hrecords : scan.page.records ≠ [])
      (hline : IsLine lineFeed (between source.bytes scan.start scan.offset)) :
      Ended { scan with offset := scan.start }
  | atEnd {scan : Scan P C} (hgoing : scan.Going json source request offset₀ start₀)
      (hend : scan.offset = source.bytes.length) : Ended scan.atEnd

variable {json source request offset₀ start₀} (available : Nat → Nat)

theorem fillBuf_prefix_drop (offset : Nat) :
    fillBuf source available offset <+: source.bytes.drop offset :=
  List.take_prefix _ _

theorem fillBuf_eq_nil_iff {offset : Nat} (hoffset : offset ≤ source.bytes.length) :
    fillBuf source available offset = [] ↔ offset = source.bytes.length := by
  rw [fillBuf, List.take_eq_nil_iff, List.drop_eq_nil_iff]
  omega

/-- One iteration keeps the invariant, ends the loop, or finds a line which fits no page. -/
theorem Scan.Going.step (h : scan.Going json source request offset₀ start₀)
    (hstart : start₀ ≤ offset₀) (hanchor : request.recordId = none)
    (hbound : scan.scanned < maxScanBytes) :
    (∃ scan', scan.step json source request available = .next scan' ∧
        scan'.Going json source request offset₀ start₀) ∨
      (∃ scan', scan.step json source request available = .stop scan' ∧
        scan'.Ended json source request offset₀ start₀) ∨
      (Crowded json source request ∧ scan.step json source request available =
        .answer (emptyPage .partially "page_budget_too_small")) := by
  unfold Scan.step
  by_cases hbuffer : fillBuf source available scan.offset = []
  · refine .inr (.inl ⟨scan.atEnd, if_pos hbuffer, .atEnd h ?_⟩)
    exact (fillBuf_eq_nil_iff available h.reading.offset_le).mp hbuffer
  rw [if_neg hbuffer]
  generalize hchunk : scan.chunkOf (fillBuf source available scan.offset) = chunk
  have hne : chunk ≠ [] := by
    rw [← hchunk]
    exact Scan.chunkOf_ne_nil hbound hbuffer
  have hpos : 0 < chunk.length := List.length_pos_iff.mpr hne
  have hchunkPart : chunk <+: fillBuf source available scan.offset := by
    rw [← hchunk]
    exact List.take_prefix _ _
  have hpart := hchunkPart.trans (fillBuf_prefix_drop available scan.offset)
  have hread : chunk <+: readUntil lineFeed (fillBuf source available scan.offset) := by
    refine List.prefix_of_prefix_length_le hchunkPart (readUntil_isPrefix _) ?_
    rw [← hchunk, Scan.chunkOf, List.length_take]
    omega
  have hlimit : scan.scanned + chunk.length ≤ maxScanBytes := by
    rw [← hchunk, Scan.chunkOf, List.length_take]
    omega
  have hreading := h.reading.consume hpart hlimit
  have hcollected := h.collected.consume chunk
  simp only
  by_cases hlast : chunk.getLast? = some lineFeed
  · rw [if_pos hlast]
    have hline := h.inside.isLine h.reading.start_le hpart ((part_of_readUntil hread).1 hlast)
    have hoffset : offset₀ < (scan.consume chunk).offset := by
      show offset₀ < scan.offset + chunk.length
      have := h.reading.offset_eq
      omega
    rcases Scan.finishLine_cases hreading hcollected hline hstart hoffset hanchor with
      ⟨record, bytes, hnext, hreading', hcollected'⟩ | ⟨hrecords, hstop⟩ | hanswer
    · refine .inl ⟨_, hnext, hreading', ?_, hcollected'⟩
      show lineFeed ∉ between source.bytes (scan.consume chunk).offset (scan.consume chunk).offset
      rw [between_self]
      exact List.not_mem_nil
    · exact .inr (.inl ⟨_, hstop, .deferred hreading hcollected hrecords hline⟩)
    · exact .inr (.inr hanswer)
  · rw [if_neg hlast]
    exact .inl ⟨_, rfl, hreading, h.inside.consume h.reading.start_le hpart
      ((part_of_readUntil hread).2 hlast), hcollected⟩

/-- The whole loop, whatever the chunks. -/
theorem Scan.Going.run (h : scan.Going json source request offset₀ start₀)
    (hstart : start₀ ≤ offset₀) (hanchor : request.recordId = none) :
    (∃ scan', scan.run json source request available = .ok scan' ∧
        scan'.Ended json source request offset₀ start₀) ∨
      (Crowded json source request ∧ scan.run json source request available =
        .error (emptyPage .partially "page_budget_too_small")) := by
  -- by the bytes which the scan may still read
  induction hleft : maxScanBytes - scan.scanned using Nat.strong_induction_on generalizing scan with
  | _ left ih =>
    rw [Scan.run.eq_def]
    by_cases hcond : scan.scanned < maxScanBytes ∧ scan.page.records.length < recordLimit request
    · rw [dif_pos hcond]
      rcases h.step available hstart hanchor hcond.1 with
        ⟨scan', hstep, hgoing⟩ | ⟨scan', hstep, hended⟩ | ⟨hcrowded, hstep⟩
      · have hlt := Scan.scanned_lt_of_step hcond.1 hstep
        have hrun := ih (maxScanBytes - scan'.scanned) (by omega) hgoing rfl
        split
        · rename_i heq
          rw [hstep] at heq
          cases heq
          exact hrun
        · rename_i heq
          rw [hstep] at heq
          cases heq
        · rename_i heq
          rw [hstep] at heq
          cases heq
      · left
        refine ⟨scan', ?_, hended⟩
        split <;> simp_all
      · refine .inr ⟨hcrowded, ?_⟩
        split <;> simp_all
    · rw [dif_neg hcond]
      refine .inl ⟨scan, rfl, ?_⟩
      have hscanned := h.reading.scanned_le
      rw [not_and_or, Nat.not_lt, Nat.not_lt] at hcond
      rcases hcond with hbound | hrecords
      · exact .bound h (Nat.le_antisymm hscanned hbound)
      · exact .full h hrecords

end AgentOdometer.Transcript
