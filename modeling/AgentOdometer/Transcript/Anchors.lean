import AgentOdometer.Transcript.Paging

/-!
# Record anchors

A record's id names its source, where it starts, and a hash of its text or, for want of one, of the
generation of the file (`transcript.rs:106–143,520–569,676–711`). A request for the id reads from
there and answers with the record in front, as long as it recomputes the same hash from one scan of
the line.
-/

namespace AgentOdometer.Transcript

open Text Lines

variable {V P C : Type} {json : Json V P C} {source : Source} {sessionId : String}

/-- The request for a record is read from where its id says that it starts. -/
theorem anchored_recordId (h : source.Opened) {request : TranscriptRequest} {start hash : Nat}
    (hrecord : request.recordId = some (recordId source start hash))
    (hcursor : request.cursor = none)
    (hstart : start ≤ source.bytes.length) :
    (positioned source request : Except (TranscriptPage P C) (Nat × Nat)) = .ok (start, start) := by
  have hparse := parseU64_toString (Nat.lt_of_le_of_lt hstart h.size)
  have hlength := h.recordId_le hstart hash
  have hanchor : (anchorOffset source request (recordId source start hash) :
      Except (TranscriptPage P C) Nat) = .ok start := by
    unfold anchorOffset
    simp [require, hcursor, hlength, anchorParts_recordId, hparse, hstart, bind, Except.bind, pure,
      Except.pure, Option.filter_some, -Nat.toString_eq_repr]
  unfold positioned anchored
  rw [hrecord, hcursor]
  simp only [hanchor, Except.map, Except.bind]

/-! ### Reading one record -/

variable (json source) in
/-- There is room for the record, if need be without its body. -/
def HasRoom (request : TranscriptRequest) (record : TranscriptRecord P C) : Prop :=
  json.pageBytes (envelope source request) < byteLimit request ∧
    Fits json source request record.withoutBody

variable {request : TranscriptRequest} {available : Nat → Nat} {scan scan' : Scan P C}
  {pos : Nat} {line : List UInt8}

variable (json source) in
/-- The record of a line which is read from its start in one scan. -/
def soleRecord (pos : Nat) (line : List UInt8) : TranscriptRecord P C :=
  transcriptRecord json source pos (pos + line.length) line (decide (maxRecordBytes < line.length))

variable (json source request) in
/-- A scan from the start of a line which has not come to its end. -/
structure Scan.Seeking (pos : Nat) (scan : Scan P C) : Prop where
  reading : scan.Reading source pos pos
  start : scan.start = pos
  inside : scan.Inside source
  records : scan.page.records = []
  returned : scan.returned = json.pageBytes (envelope source request)

/-- A line which is complete in a part of the file is in it. -/
theorem between_eq_line (hline : IsLine lineFeed line) (hpart : line <+: source.bytes.drop pos)
    {stop : Nat} (h : IsLine lineFeed (between source.bytes pos stop)) :
    between source.bytes pos stop = line := by
  rw [← readUntil_drop_eq hline hpart]
  exact (readUntil_drop_eq h (List.take_prefix _ _)).symm

/-- A scan which has gone past the length of a line has come to its end. -/
theorem Scan.Seeking.lt_length (h : scan.Seeking json source request pos)
    (hline : IsLine lineFeed line) (hpart : line <+: source.bytes.drop pos) :
    scan.offset < pos + line.length := by
  by_contra hle
  apply h.inside
  rw [h.start]
  have hprefix : line <+: between source.bytes pos scan.offset := by
    refine List.prefix_of_prefix_length_le hpart (List.take_prefix _ _) ?_
    rw [length_between h.reading.offset_le]
    omega
  exact hprefix.subset (List.mem_of_getLast? hline.getLast?)

/-- The end of the line: the record joins the page as its first. -/
theorem Scan.finishLine_of_seeking (hreading : scan.Reading source pos pos)
    (hstart : scan.start = pos) (hrecords : scan.page.records = [])
    (hreturned : scan.returned = json.pageBytes (envelope source request))
    (hline : between source.bytes pos scan.offset = line)
    (hroom : HasRoom json source request (soleRecord json source pos line))
    (hrecord : request.recordId = some (soleRecord json source pos line).id) :
    ∃ record bytes, scan.finishLine json source request = .next (scan.push record bytes) ∧
      (record = soleRecord json source pos line ∨
        record = (soleRecord json source pos line).withoutBody) := by
  have hbuilt : transcriptRecord json source scan.start scan.offset scan.raw scan.oversized =
      soleRecord json source pos line := by
    rw [hreading.transcriptRecord_eq, hstart, hline, isOversized]
    simp [soleRecord]
  unfold Scan.finishLine
  rw [hbuilt, hrecord, hrecords]
  simp only [Option.any_some, List.isEmpty_nil, ne_eq, not_true_eq_false, decide_false,
    Bool.and_false, Bool.false_eq_true, if_false, Bool.not_true]
  by_cases hfits : scan.returned + json.recordBytes (soleRecord json source pos line) ≤
      byteLimit request
  · exact ⟨_, _, if_pos hfits, .inl rfl⟩
  · rw [if_neg hfits, if_pos]
    · exact ⟨_, _, rfl, .inr rfl⟩
    · rw [hreturned]
      exact hroom.2

variable (available) in
/-- An iteration stays in the line, or ends it with its record. -/
theorem Scan.Seeking.step (h : scan.Seeking json source request pos)
    (hbound : scan.scanned < maxScanBytes) (hline : IsLine lineFeed line)
    (hpart : line <+: source.bytes.drop pos)
    (hroom : HasRoom json source request (soleRecord json source pos line))
    (hrecord : request.recordId = some (soleRecord json source pos line).id) :
    (∃ scan', scan.step json source request available = .next scan' ∧
        scan'.Seeking json source request pos) ∨
      ∃ scan' record, scan.step json source request available = .next scan' ∧
        scan'.page.records = [record] ∧ line.length ≤ maxScanBytes ∧
          (record = soleRecord json source pos line ∨
            record = (soleRecord json source pos line).withoutBody) := by
  have hbuffer : fillBuf source available scan.offset ≠ [] := by
    rw [Ne, fillBuf_eq_nil_iff available h.reading.offset_le]
    have hlt := h.lt_length hline hpart
    have hle := hpart.length_le
    have hpos := List.length_pos_iff.mpr hline.ne_nil
    rw [List.length_drop] at hle
    omega
  unfold Scan.step
  rw [if_neg hbuffer]
  generalize hchunk : scan.chunkOf (fillBuf source available scan.offset) = chunk
  have hchunkPart : chunk <+: fillBuf source available scan.offset := by
    rw [← hchunk]
    exact List.take_prefix _ _
  have hdrop := hchunkPart.trans (fillBuf_prefix_drop available scan.offset)
  have hread : chunk <+: readUntil lineFeed (fillBuf source available scan.offset) := by
    refine List.prefix_of_prefix_length_le hchunkPart (readUntil_isPrefix _) ?_
    rw [← hchunk, Scan.chunkOf, List.length_take]
    omega
  have hlimit : scan.scanned + chunk.length ≤ maxScanBytes := by
    rw [← hchunk, Scan.chunkOf, List.length_take]
    omega
  have hreading := h.reading.consume hdrop hlimit
  simp only
  by_cases hlast : chunk.getLast? = some lineFeed
  · rw [if_pos hlast]
    have hcomplete := h.inside.isLine h.reading.start_le hdrop ((part_of_readUntil hread).1 hlast)
    rw [h.start] at hcomplete
    have hwhole := between_eq_line hline hpart hcomplete
    obtain ⟨record, bytes, hnext, hwhich⟩ := Scan.finishLine_of_seeking hreading h.start h.records
      h.returned hwhole hroom hrecord
    refine .inr ⟨_, record, hnext, ?_, ?_, hwhich⟩
    · show ((scan.page.note record.issue).records ++ [record]) = [record]
      rw [records_note, h.records, List.nil_append]
    · have hlength := length_between (i := pos) hreading.offset_le
      rw [hwhole, hreading.offset_eq] at hlength
      have := hreading.scanned_le
      omega
  · rw [if_neg hlast]
    exact .inl ⟨_, rfl, hreading, h.start,
      h.inside.consume h.reading.start_le hdrop ((part_of_readUntil hread).2 hlast), h.records,
      h.returned⟩

variable (json source request available) in
/-- An iteration keeps the records of a page that has one, and gives no answer. -/
theorem Scan.step_of_records (hrecords : scan.page.records ≠ []) :
    ∃ scan', (scan.step json source request available = .next scan' ∨
        scan.step json source request available = .stop scan') ∧
      scan.page.records <+: scan'.page.records := by
  unfold Scan.step
  simp only
  split
  · refine ⟨_, .inr rfl, ?_⟩
    exact ⟨[], (List.append_nil _).trans records_atEnd.symm⟩
  · split
    · generalize hconsumed : scan.consume (scan.chunkOf
        (fillBuf source available scan.offset)) = consumed
      have hsame : consumed.page.records = scan.page.records := by
        rw [← hconsumed]
        rfl
      have hnonempty : consumed.page.records.isEmpty = false := by
        rw [hsame, List.isEmpty_eq_false_iff]
        exact hrecords
      have hpush : ∀ (record : TranscriptRecord P C) (bytes : Nat),
          scan.page.records <+: (consumed.push record bytes).page.records := by
        intro record bytes
        show scan.page.records <+: (consumed.page.note record.issue).records ++ [record]
        rw [records_note, hsame]
        exact List.prefix_append _ _
      unfold Scan.finishLine
      simp only [hnonempty, Bool.false_and, Bool.false_eq_true, if_false, Bool.not_false, if_true]
      split
      · exact ⟨_, .inl rfl, hpush _ _⟩
      · refine ⟨_, .inr rfl, ?_⟩
        exact ⟨[], (List.append_nil _).trans hsame.symm⟩
    · exact ⟨_, .inl rfl, List.prefix_refl _⟩

/-- The loop after an iteration that continues. -/
theorem Scan.run_next
    (hcond : scan.scanned < maxScanBytes ∧ scan.page.records.length < recordLimit request)
    (hstep : scan.step json source request available = .next scan') :
    scan.run json source request available = scan'.run json source request available := by
  rw [Scan.run.eq_def, dif_pos hcond]
  split
  next heq =>
    rw [hstep] at heq
    cases heq
    rfl
  next heq =>
    rw [hstep] at heq
    cases heq
  next heq =>
    rw [hstep] at heq
    cases heq

/-- The loop after an iteration that ends it. -/
theorem Scan.run_stop
    (hcond : scan.scanned < maxScanBytes ∧ scan.page.records.length < recordLimit request)
    (hstep : scan.step json source request available = .stop scan') :
    scan.run json source request available = .ok scan' := by
  rw [Scan.run.eq_def, dif_pos hcond]
  split
  next heq =>
    rw [hstep] at heq
    cases heq
  next heq =>
    rw [hstep] at heq
    cases heq
    rfl
  next heq =>
    rw [hstep] at heq
    cases heq

variable (json source request available) in
/-- The rest of the loop keeps the records of a page that has one. -/
theorem Scan.run_of_records (hrecords : scan.page.records ≠ []) :
    ∃ scan', scan.run json source request available = .ok scan' ∧
      scan.page.records <+: scan'.page.records := by
  induction hleft : maxScanBytes - scan.scanned using Nat.strong_induction_on generalizing scan with
  | _ left ih =>
    by_cases hcond : scan.scanned < maxScanBytes ∧ scan.page.records.length < recordLimit request
    · obtain ⟨scan', hstep | hstep, hprefix⟩ := Scan.step_of_records json source request
        available hrecords
      · have hlt := Scan.scanned_lt_of_step hcond.1 hstep
        have hne : scan'.page.records ≠ [] := fun hnil ↦
          hrecords (List.prefix_nil.mp (hnil ▸ hprefix))
        obtain ⟨final, hrun, hfinal⟩ := ih (maxScanBytes - scan'.scanned) (by omega) hne rfl
        exact ⟨final, (Scan.run_next hcond hstep).trans hrun, hprefix.trans hfinal⟩
      · exact ⟨scan', Scan.run_stop hcond hstep, hprefix⟩
    · rw [Scan.run.eq_def, dif_neg hcond]
      exact ⟨scan, rfl, List.prefix_refl _⟩

variable (available) in
/-- A scan from the start of a line comes to its record, if it is not longer than a scan. -/
theorem Scan.Seeking.run (h : scan.Seeking json source request pos) (hline : IsLine lineFeed line)
    (hpart : line <+: source.bytes.drop pos)
    (hroom : HasRoom json source request (soleRecord json source pos line))
    (hrecord : request.recordId = some (soleRecord json source pos line).id) :
    ∃ scan', scan.run json source request available = .ok scan' ∧
      (line.length ≤ maxScanBytes ∧ (∃ first, scan'.page.records.head? = some first ∧
          (first = soleRecord json source pos line ∨
            first = (soleRecord json source pos line).withoutBody)) ∨
        maxScanBytes < line.length ∧ scan'.page.records = []) := by
  induction hleft : maxScanBytes - scan.scanned using Nat.strong_induction_on generalizing scan with
  | _ left ih =>
    by_cases hbound : scan.scanned < maxScanBytes
    · have hlimit : scan.page.records.length < recordLimit request := by
        rw [h.records, recordLimit, List.length_nil]
        omega
      rcases h.step available hbound hline hpart hroom hrecord with
        ⟨scan', hstep, hseeking⟩ | ⟨scan', record, hstep, hrecords, hlength, hwhich⟩
      · have hlt := Scan.scanned_lt_of_step hbound hstep
        obtain ⟨final, hrun, hfinal⟩ := ih (maxScanBytes - scan'.scanned) (by omega) hseeking rfl
        exact ⟨final, (Scan.run_next ⟨hbound, hlimit⟩ hstep).trans hrun, hfinal⟩
      · obtain ⟨final, hrun, rest, hrest⟩ := Scan.run_of_records json source request available
          (hrecords ▸ List.cons_ne_nil record [])
        refine ⟨final, (Scan.run_next ⟨hbound, hlimit⟩ hstep).trans hrun,
          .inl ⟨hlength, record, ?_, hwhich⟩⟩
        rw [← hrest, hrecords]
        rfl
    · rw [Scan.run.eq_def, dif_neg fun hcond ↦ hbound hcond.1]
      refine ⟨scan, rfl, .inr ⟨?_, h.records⟩⟩
      have hlt := h.lt_length hline hpart
      rw [h.reading.offset_eq] at hlt
      omega

/-- The variables before the loop, at the start of a line. -/
theorem Scan.seeking_initial (hpos : pos ≤ source.bytes.length) :
    (Scan.initial json source request pos pos).Seeking json source request pos := by
  refine ⟨⟨Nat.le_refl _, hpos, rfl, Nat.zero_le _, ?_, ?_⟩, rfl, ?_, rfl, rfl⟩
  · show decide (pos < pos) = isOversized pos pos pos (pos - pos)
    simp [isOversized]
  · intro _
    exact (between_self source.bytes pos).symm
  · show lineFeed ∉ between source.bytes pos pos
    rw [between_self]
    exact List.not_mem_nil

/-- The request for a record, with limits of a page. -/
def PageLimits.seekRequest (limits : PageLimits) (sessionId recordId : String) :
    TranscriptRequest :=
  { limits.request sessionId none with recordId := some recordId }

variable (json source sessionId) in
/-- The page which a request for a record is answered with. -/
def PageLimits.seek (limits : PageLimits) (recordId : String) : TranscriptPage P C :=
  readPageInner json source (limits.seekRequest sessionId recordId)
    (if limits.verified then some source.generation else none) limits.available source.generation

/-- The line of an id is read back in one scan, if it is not longer. -/
theorem head?_seek (hopened : source.Opened) (limits : PageLimits)
    (hboundary : pos = 0 ∨ source.bytes[pos - 1]? = some lineFeed) (hline : IsLine lineFeed line)
    (hpart : line <+: source.bytes.drop pos) {id : String}
    (hid : id = (soleRecord json source pos line).id)
    (hroom : HasRoom json source (limits.seekRequest sessionId id)
      (soleRecord json source pos line)) :
    line.length ≤ maxScanBytes ∧
        (∃ first, (limits.seek json source sessionId id).records.head? = some first ∧
          (first = soleRecord json source pos line ∨
            first = (soleRecord json source pos line).withoutBody)) ∨
      maxScanBytes < line.length ∧ (limits.seek json source sessionId id).records = [] := by
  have hpos : pos ≤ source.bytes.length := (lt_length_of_isLine hline hpart).le
  have hpositioned : (positioned source (limits.seekRequest sessionId id) :
      Except (TranscriptPage P C) (Nat × Nat)) = .ok (pos, pos) :=
    anchored_recordId hopened (congrArg some hid) rfl hpos
  have hcheck : (!(if limits.verified then some source.generation else none).any
      (· ≠ source.generation)) = true := by
    cases limits.verified <;> simp
  have hfeed : (pos == 0 || source.bytes[pos - 1]? == some lineFeed) = true := by
    simpa using hboundary
  have hseeking : (Scan.initial json source (limits.seekRequest sessionId id) pos pos).Seeking json
      source (limits.seekRequest sessionId id) pos := Scan.seeking_initial hpos
  obtain ⟨scan, hrun, hfound⟩ := hseeking.run limits.available hline hpart hroom
    (congrArg some hid)
  have hpage : limits.seek json source sessionId id =
      (scan.close source (limits.seekRequest sessionId id)).continued scan.oversized := by
    have hfrom : readFrom json source (limits.seekRequest sessionId id) limits.available
        source.generation pos pos =
          .ok ((scan.close source (limits.seekRequest sessionId id)).continued scan.oversized) := by
      unfold Transcript.readFrom
      simp [require, hroom.1, hrun, bind, Except.bind, pure, Except.pure]
    unfold PageLimits.seek Transcript.readPageInner Transcript.checkBoundary
    simp only [hcheck, require, if_true, hpositioned, hfeed, bind, Except.bind, hfrom, settled]
  rw [hpage, records_continued, records_close]
  exact hfound

/-! ### Round trips -/

variable (json source sessionId) in
/-- The cursors which following `next_cursor` from the start of the file comes to. -/
inductive Reached : Option TranscriptCursor → Prop
  | start : Reached none
  | next {cursor : Option TranscriptCursor} {following : TranscriptCursor} (limits : PageLimits)
      (hreached : Reached cursor)
      (hnext : (limits.exchange json source sessionId cursor).page.nextCursor = some following) :
      Reached (some following)

/-- A page has the id, the offset and the length of a record in front. -/
def ReturnsFirst (page : TranscriptPage P C) (record : TranscriptRecord P C) : Prop :=
  ∃ first, page.records.head? = some first ∧ first.id = record.id ∧
    first.byteOffset = record.byteOffset ∧ first.byteLength = record.byteLength

/-- A page was asked for inside the line of a record, which one scan of it could show. -/
def ResumedInside (json : Json V P C) (source : Source) (cursor : Option TranscriptCursor)
    (record : TranscriptRecord P C) : Prop :=
  (∃ c ∈ cursor, c.recordStart = record.byteOffset ∧ c.recordStart < c.offset) ∧
    record.byteLength ≤ maxRecordBytes ∧ (readJson json (source.slice record)).isSome

/-- The same file after bytes were appended to it. -/
structure Source.Grows (source grown : Source) : Prop where
  sourceId : grown.sourceId = source.sourceId
  identity : grown.identity = source.identity
  bytes : source.bytes <+: grown.bytes

variable {cursor : Option TranscriptCursor}

variable (json) in
theorem page_cases {limits : PageLimits}
    (h : Requested source (limits.request sessionId cursor)) :
    (limits.exchange json source sessionId cursor).Holds json source ∨
      (limits.exchange json source sessionId cursor).page =
        emptyPage .partially "page_budget_too_small" := by
  let everywhere : Nat → PageLimits := fun _ ↦ limits
  have hrequested : Requested source ((everywhere 0).request sessionId cursor) := h
  exact exchange_cases json hrequested

/-- A cursor of a page can be asked for with any limits. -/
theorem Reached.requested (h : Reached json source sessionId cursor) (limits : PageLimits) :
    Requested source (limits.request sessionId cursor) := by
  induction h generalizing limits with
  | start =>
    let everywhere : Nat → PageLimits := fun _ ↦ limits
    show Requested source ((everywhere 0).request sessionId none)
    exact requested_start 0
  | next before hreached hnext ih =>
    rcases page_cases json (ih before) with ⟨-, finish, hcontents⟩ | hfail
    · let everywhere : Nat → PageLimits := fun _ ↦ limits
      show Requested source ((everywhere 0).request sessionId _)
      exact (hcontents.next _ hnext).requested rfl 0
    · rw [hfail] at hnext
      cases hnext

theorem id_lineRecord {offset₀ start₀ : Nat} :
    (lineRecord json source request offset₀ start₀ pos line).id =
      (transcriptRecord json source pos (pos + line.length) line
        (isOversized offset₀ start₀ pos line.length)).id := by
  unfold lineRecord
  simp only
  split
  · rfl
  · rfl

/-- Every record of a page which was reached by cursors belongs to a line of the file. -/
theorem Reached.record (h : Reached json source sessionId cursor) {limits : PageLimits}
    {record : TranscriptRecord P C}
    (hmem : record ∈ (limits.exchange json source sessionId cursor).page.records) :
    ∃ pos line, (pos = 0 ∨ source.bytes[pos - 1]? = some lineFeed) ∧ IsLine lineFeed line ∧
      line <+: source.bytes.drop pos ∧
        record = lineRecord json source (limits.request sessionId cursor)
          (limits.request sessionId cursor).offset (limits.request sessionId cursor).start
            pos line := by
  have hrequested := h.requested limits
  rcases page_cases json hrequested with ⟨-, finish, hcontents⟩ | hfail
  · obtain ⟨pos, line, hboundary, hline, hpart, hrecord⟩ :=
      hcontents.tiles.exists_boundary_of_mem hmem
    refine ⟨pos, line, ?_, hline, hpart, hrecord⟩
    rcases hboundary with rfl | hfeed
    · exact hrequested.position.boundary
    · exact .inr hfeed
  · rw [hfail] at hmem
    cases hmem

/-- A record that is read from its line in one scan is in front of the page of its id. -/
theorem returnsFirst_of_sole (hopened : source.Opened) (limits : PageLimits)
    (hboundary : pos = 0 ∨ source.bytes[pos - 1]? = some lineFeed) (hline : IsLine lineFeed line)
    (hpart : line <+: source.bytes.drop pos) (hlength : line.length ≤ maxScanBytes)
    {record : TranscriptRecord P C}
    (hsame : record.withoutBody = (soleRecord json source pos line).withoutBody)
    (hroom : HasRoom json source (limits.seekRequest sessionId record.id) record) :
    ReturnsFirst (limits.seek json source sessionId record.id) record := by
  have hid : record.withoutBody.id = (soleRecord json source pos line).withoutBody.id :=
    congrArg TranscriptRecord.id hsame
  have hoffset : record.withoutBody.byteOffset =
      (soleRecord json source pos line).withoutBody.byteOffset :=
    congrArg TranscriptRecord.byteOffset hsame
  have hbytes : record.withoutBody.byteLength =
      (soleRecord json source pos line).withoutBody.byteLength :=
    congrArg TranscriptRecord.byteLength hsame
  have hsole : HasRoom json source (limits.seekRequest sessionId record.id)
      (soleRecord json source pos line) := ⟨hroom.1, hsame ▸ hroom.2⟩
  rcases head?_seek hopened limits hboundary hline hpart hid hsole with
    ⟨-, first, hfirst, hwhich⟩ | ⟨hlong, -⟩
  · refine ⟨first, hfirst, ?_⟩
    rcases hwhich with rfl | rfl
    · exact ⟨hid.symm, hoffset.symm, hbytes.symm⟩
    · exact ⟨hid.symm, hoffset.symm, hbytes.symm⟩
  · omega

theorem withoutBody_lineRecord {offset₀ start₀ : Nat} :
    (lineRecord json source request offset₀ start₀ pos line).withoutBody =
      (transcriptRecord json source pos (pos + line.length) line
        (isOversized offset₀ start₀ pos line.length)).withoutBody := by
  unfold lineRecord
  simp only
  split <;> rfl

/-- Without its body, the record of a line is that of any file with its ids, where it was read with
the same text or with none of the same generation. -/
theorem withoutBody_transcriptRecord {other : Source} {oversized oversized' : Bool}
    (hsource : other.sourceId = source.sourceId) (hidentity : other.identity = source.identity)
    (hread : (if oversized then none else readJson json line) =
      if oversized' then none else readJson json line)
    (hgeneration : other.generation = source.generation ∨
      ((if oversized then none else readJson json line).map Prod.fst).isSome = true) :
    (transcriptRecord json source pos (pos + line.length) line oversized).withoutBody =
      (transcriptRecord json other pos (pos + line.length) line oversized').withoutBody := by
  unfold TranscriptRecord.withoutBody transcriptRecord
  simp only [hsource, hidentity, ← hread]
  rcases hgeneration with heq | hsome
  · rw [heq]
  · obtain ⟨text, htext⟩ := Option.isSome_iff_exists.mp hsome
    rw [htext]
    rfl

/-- A record whose line is no longer than a scan, and in which no page resumed that could show it,
is found again under its id. One that was returned with its text is so after the file has grown. -/
theorem record_anchors_round_trip (json : Json V P C) (source : Source) (sessionId : String)
    (hopened : source.Opened) (cursor : Option TranscriptCursor)
    (hreached : Reached json source sessionId cursor) (limits : PageLimits)
    (record : TranscriptRecord P C)
    (hrecord : record ∈ (limits.exchange json source sessionId cursor).page.records) :
    (record.byteLength ≤ maxScanBytes → ¬ ResumedInside json source cursor record →
      ∀ again : PageLimits, HasRoom json source (again.seekRequest sessionId record.id) record →
        ReturnsFirst (again.seek json source sessionId record.id) record) ∧
    (record.rawJson.isSome = true → ∀ grown : Source, source.Grows grown → grown.Opened →
      ∀ again : PageLimits, HasRoom json grown (again.seekRequest sessionId record.id) record →
        ReturnsFirst (again.seek json grown sessionId record.id) record) := by
  obtain ⟨pos, line, hboundary, hline, hpart, hmade⟩ := hreached.record hrecord
  have hoffset : record.byteOffset = pos := by rw [hmade, byteOffset_lineRecord]
  have hlength : record.byteLength = line.length := by rw [hmade, byteLength_lineRecord]
  have hslice : source.slice record = line := by
    rw [hmade, slice_of_standsFor standsFor_lineRecord hpart]
  constructor
  · intro hscan houtside again hroom
    refine returnsFirst_of_sole hopened again hboundary hline hpart (hlength ▸ hscan) ?_ hroom
    rw [hmade, withoutBody_lineRecord]
    refine withoutBody_transcriptRecord rfl rfl ?_ (.inl rfl)
    by_cases hlong : maxRecordBytes < line.length
    · simp [isOversized, hlong]
    · by_cases hresumed : pos = (limits.request sessionId cursor).start ∧
          (limits.request sessionId cursor).start < (limits.request sessionId cursor).offset
      · -- The page gave the body up, so that there must be none to read again.
        have hnone : readJson json line = none := by
          by_contra hsome
          apply houtside
          refine ⟨?_, by omega, by rw [hslice]; exact Option.isSome_iff_ne_none.mpr hsome⟩
          cases hcursor : cursor with
          | none =>
            rw [hcursor] at hresumed
            exact absurd hresumed.2 (Nat.not_lt_zero _)
          | some c =>
            rw [hcursor] at hresumed
            exact ⟨c, rfl, hresumed.1.symm.trans hoffset.symm, hresumed.2⟩
        simp [hnone]
      · have hflag : isOversized (limits.request sessionId cursor).offset
            (limits.request sessionId cursor).start pos line.length = false := by
          rw [not_and_or] at hresumed
          simp only [isOversized, hlong, decide_false, Bool.or_false, Bool.and_eq_false_iff,
            beq_eq_false_iff_ne, decide_eq_false_iff_not]
          exact hresumed
        rw [hflag, decide_eq_false hlong]
  · intro hraw grown hgrows hgrown again hroom
    have hflag : isOversized (limits.request sessionId cursor).offset
        (limits.request sessionId cursor).start pos line.length = false := by
      by_contra hover
      rw [Bool.not_eq_false] at hover
      rw [hmade, rawJson_lineRecord_of_oversized hover] at hraw
      cases hraw
    have hshort : ¬ maxRecordBytes < line.length := by
      rw [isOversized, Bool.or_eq_false_iff, decide_eq_false_iff_not] at hflag
      exact hflag.2
    have hread : (readJson json line).isSome = true := by
      rw [hmade] at hraw
      unfold lineRecord at hraw
      rw [hflag] at hraw
      simp only at hraw
      split at hraw
      · rw [rawJson_transcriptRecord] at hraw
        simpa using hraw
      · cases hraw
    obtain ⟨more, hmore⟩ := hgrows.bytes
    have hpos : pos ≤ source.bytes.length := (lt_length_of_isLine hline hpart).le
    have hboundary' : pos = 0 ∨ grown.bytes[pos - 1]? = some lineFeed := by
      refine hboundary.imp_right fun hfeed ↦ ?_
      rw [← hmore, List.getElem?_append_left (List.getElem?_eq_some_iff.mp hfeed).1, hfeed]
    have hpart' : line <+: grown.bytes.drop pos := by
      rw [← hmore, List.drop_append_of_le_length hpos]
      exact hpart.trans (List.prefix_append _ _)
    have hscan : line.length ≤ maxScanBytes := by
      have hmax : maxRecordBytes ≤ maxScanBytes := by decide
      omega
    refine returnsFirst_of_sole hgrown again hboundary' hline hpart' hscan ?_ hroom
    rw [hmade, withoutBody_lineRecord, hflag]
    refine withoutBody_transcriptRecord hgrows.sourceId hgrows.identity ?_ (.inr ?_)
    · rw [decide_eq_false hshort]
    · simpa using hread

/-- The default budget leaves room for a record under an id which a request may name. -/
theorem hasRoom_sampleJson (source : Source) (sessionId : String)
    {record : TranscriptRecord Unit Unit} (hid : record.id.utf8ByteSize ≤ 1024) :
    HasRoom sampleJson source ((defaultLimits 0).seekRequest sessionId record.id) record := by
  constructor
  · show 600 + 0 < 131072
    decide
  · show 600 + 0 + (300 + record.id.utf8ByteSize + 0) ≤ 131072
    omega

/-- A file of one line. -/
def single : Source where
  sourceId := "artifact"
  identity := "1:2"
  generation := "1:2:16:0"
  bytes := shortLine

/-- The file after the line was appended to it once more. -/
def doubled : Source where
  sourceId := "artifact"
  identity := "1:2"
  generation := "1:2:32:0"
  bytes := shortLine ++ shortLine

theorem record_anchors_round_trip_single :
    ∃ record ∈ ((defaultLimits 0).exchange sampleJson single "codex:thread:t" none).page.records,
      ReturnsFirst ((defaultLimits 0).seek sampleJson single "codex:thread:t" record.id) record ∧
        ReturnsFirst ((defaultLimits 0).seek sampleJson doubled "codex:thread:t" record.id)
          record := by
  have hrequested : Requested single ((defaultLimits 0).request "codex:thread:t" none) :=
    requested_start 0
  have hopened : single.Opened := ⟨by decide, by decide⟩
  obtain ⟨-, finish, hcontents⟩ :=
    (roomy_sampleJson hopened "codex:thread:t").holds hrequested
  have hne : ((defaultLimits 0).exchange sampleJson single "codex:thread:t" none).page.records ≠
      [] := fun hnil ↦ hcontents.empty hnil (by decide)
  obtain ⟨record, hmem, line, hline, hpart, hmade⟩ := hcontents.tiles.head hne
  have hwhole : line = shortLine := by
    rw [← readUntil_drop_eq hline hpart]
    decide
  subst hwhole
  have hread : readJson sampleJson shortLine = some ("\x7b\"type\":\"user\"\x7d\n", ()) := by
    rw [readJson, shortLine, fromUtf8_utf8]
    rfl
  have hbytes : record.byteLength = 16 := by
    rw [hmade, byteLength_lineRecord]
    rfl
  have hraw : record.rawJson.isSome = true := by
    have hshowable : Showable sampleJson single ((defaultLimits 0).request "codex:thread:t" none) 0
        shortLine := by
      refine ⟨isLine_shortLine, by decide, by rw [hread]; rfl, ?_⟩
      have hid := hopened.id_le sampleJson isLine_shortLine hpart false
      have hsize : ("\x7b\"type\":\"user\"\x7d\n" : String).utf8ByteSize = 16 := by
        decide
      show 600 + 0 + (300 + (fullRecord sampleJson single 0 shortLine).id.utf8ByteSize +
        ((fullRecord sampleJson single 0 shortLine).rawJson.map String.utf8ByteSize).getD 0) ≤
          131072
      rw [fullRecord, rawJson_transcriptRecord, hread]
      show 600 + 0 + (300 + _ + ("\x7b\"type\":\"user\"\x7d\n" : String).utf8ByteSize) ≤ _
      rw [hsize]
      exact le_trans (Nat.add_le_add_left (Nat.add_le_add_right (Nat.add_le_add_left hid 300) 16)
        600) (by decide)
    have hcarries : single.Carries record := by
      rw [hmade]
      exact carries_of_showable hpart hshowable fun hinside ↦
        absurd hinside.2 (Nat.not_lt_zero 0)
    obtain ⟨text, htext, -⟩ := hcarries
    rw [htext]
    rfl
  have hid : record.id.utf8ByteSize ≤ 1024 := by
    rw [hmade, id_lineRecord]
    exact hopened.id_le _ hline hpart _
  have hround := record_anchors_round_trip sampleJson single "codex:thread:t" hopened none .start
    (defaultLimits 0) record hmem
  refine ⟨record, hmem, ?_, ?_⟩
  · refine hround.1 (by rw [hbytes]; decide) ?_ (defaultLimits 0) (hasRoom_sampleJson _ _ hid)
    rintro ⟨⟨c, hc, -⟩, -⟩
    cases hc
  · exact hround.2 hraw doubled ⟨rfl, rfl, List.prefix_append _ _⟩ ⟨by decide, by decide⟩
      (defaultLimits 0) (hasRoom_sampleJson _ _ hid)

/-! ### A line which is longer than a scan -/

/-- A file of one line of a byte more than a scan, and its line feed. -/
def overlong : Source where
  sourceId := "artifact"
  identity := "1:2"
  generation := "1:2:1048578:0"
  bytes := List.replicate 1048577 120 ++ [lineFeed]

theorem length_overlong : overlong.bytes.length = 1048578 := by
  rw [overlong, List.length_append, List.length_replicate, List.length_singleton]

theorem opened_overlong : overlong.Opened :=
  ⟨by rw [length_overlong]; decide, by decide⟩

/-- The only line feed is the last byte. -/
theorem lineFeed_overlong {i : Nat} (h : overlong.bytes[i]? = some lineFeed) : i = 1048577 := by
  have hlt : i < 1048578 := by
    rw [← length_overlong]
    exact (List.getElem?_eq_some_iff.mp h).1
  by_contra hne
  have hget : overlong.bytes[i]? = some 120 := by
    rw [overlong, List.getElem?_append_left (by rw [List.length_replicate]; omega),
      List.getElem?_replicate, if_pos (by omega)]
  rw [hget] at h
  exact absurd h (by decide)

theorem length_line_overlong {line : List UInt8} (hline : IsLine lineFeed line)
    (hpart : line <+: overlong.bytes) : line.length = 1048578 := by
  have hpos := List.length_pos_iff.mpr hline.ne_nil
  obtain ⟨rest, hrest⟩ := hpart
  have hlast : overlong.bytes[line.length - 1]? = some lineFeed := by
    rw [← hrest, List.getElem?_append_left (by omega), ← List.getLast?_eq_getElem?]
    exact hline.getLast?
  have hindex := lineFeed_overlong hlast
  omega

/-- The first page comes to the bound of the scan without a record. -/
theorem overlong_first_page :
    ∃ next : TranscriptCursor,
      ((defaultLimits 0).exchange sampleJson overlong "codex:thread:t" none).page.nextCursor =
          some next ∧
        next.recordStart = 0 ∧ next.offset = maxScanBytes := by
  have hrequested : Requested overlong ((defaultLimits 0).request "codex:thread:t" none) :=
    requested_start 0
  obtain ⟨-, finish, hcontents⟩ :=
    (roomy_sampleJson opened_overlong "codex:thread:t").holds hrequested
  have hfinish : finish = 0 := by
    have hle : finish ≤ 0 + maxScanBytes := hcontents.finish_le
    have hmax : maxScanBytes = 1048576 := rfl
    rcases hrequested.position.boundary_of_tiles hcontents.tiles with hzero | hfeed
    · exact hzero
    · have hindex := lineFeed_overlong hfeed
      omega
  subst hfinish
  have hnil : ((defaultLimits 0).exchange sampleJson overlong "codex:thread:t"
      none).page.records = [] := by
    by_contra hne
    exact absurd (hcontents.tiles.lt hne) (Nat.lt_irrefl 0)
  have hnext : ((defaultLimits 0).exchange sampleJson overlong "codex:thread:t"
      none).page.nextCursor ≠ none := fun hnone ↦
    hcontents.last hnone (List.mem_append_right _ List.mem_cons_self)
  obtain ⟨next, hsome⟩ := Option.ne_none_iff_exists'.mp hnext
  have hcursor := hcontents.next next hsome
  refine ⟨next, hsome, hcursor.recordStart, ?_⟩
  rcases hcursor.stopped (by rw [hnil]; decide) with hbound | ⟨hne, -⟩
  · rw [hbound]
    exact Nat.zero_add _
  · exact absurd hnil hne

/-- The second page returns the record of a line which a request for its id returns nothing of. -/
theorem not_returnsFirst_overlong :
    ∃ cursor, Reached sampleJson overlong "codex:thread:t" cursor ∧
      ∃ record ∈ ((defaultLimits 0).exchange sampleJson overlong "codex:thread:t"
          cursor).page.records,
        HasRoom sampleJson overlong ((defaultLimits 0).seekRequest "codex:thread:t" record.id)
            record ∧
          ¬ReturnsFirst ((defaultLimits 0).seek sampleJson overlong "codex:thread:t" record.id)
            record := by
  obtain ⟨next, hnext, hstart, hoffset⟩ := overlong_first_page
  have hreached : Reached sampleJson overlong "codex:thread:t" (some next) :=
    .next (defaultLimits 0) .start hnext
  obtain ⟨-, finish, hcontents⟩ := (roomy_sampleJson opened_overlong "codex:thread:t").holds
    (hreached.requested (defaultLimits 0))
  have hne : ((defaultLimits 0).exchange sampleJson overlong "codex:thread:t"
      (some next)).page.records ≠ [] := by
    intro hnil
    apply hcontents.empty hnil
    show lineFeed ∈ between overlong.bytes next.recordStart
      (min (next.offset + maxScanBytes) overlong.bytes.length)
    have hend : min (maxScanBytes + maxScanBytes) overlong.bytes.length =
        overlong.bytes.length := by
      rw [length_overlong]
      rfl
    rw [hstart, hoffset, hend, between, List.drop_zero, Nat.sub_zero, List.take_length]
    exact List.mem_append_right _ List.mem_cons_self
  obtain ⟨record, hmem, line, hline, hpart, hmade⟩ := hcontents.tiles.head hne
  have hzero : ((defaultLimits 0).exchange sampleJson overlong "codex:thread:t"
      (some next)).request.start = 0 := hstart
  rw [hzero] at hpart hmade
  have hlength := length_line_overlong hline hpart
  have hshort : record.id.utf8ByteSize ≤ 1024 := by
    rw [hmade, id_lineRecord]
    exact opened_overlong.id_le _ hline hpart _
  refine ⟨some next, hreached, record, hmem, hasRoom_sampleJson _ _ hshort, ?_⟩
  have hlong : maxRecordBytes < line.length := by
    rw [hlength]
    decide
  have hid : record.id = (soleRecord sampleJson overlong 0 line).id := by
    rw [hmade, id_lineRecord, soleRecord, id_transcriptRecord, id_transcriptRecord, isOversized,
      decide_eq_true hlong, Bool.or_true]
  have hroom : HasRoom sampleJson overlong
      ((defaultLimits 0).seekRequest "codex:thread:t" record.id)
      (soleRecord sampleJson overlong 0 line) := by
    rw [hid]
    exact hasRoom_sampleJson _ _ (hid ▸ hshort)
  rintro ⟨first, hfirst, -⟩
  rcases head?_seek opened_overlong (defaultLimits 0) (.inl rfl) hline hpart hid hroom with
    ⟨hscan, -⟩ | ⟨-, hnone⟩
  · rw [hlength] at hscan
    exact absurd hscan (by decide)
  · rw [hnone] at hfirst
    cases hfirst

end AgentOdometer.Transcript
