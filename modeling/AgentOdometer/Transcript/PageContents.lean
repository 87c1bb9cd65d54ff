import AgentOdometer.Transcript.ScanInvariant

/-!
# What a page says

The records, the cursor and the flags of one page, from the position at which its read starts.
-/

namespace AgentOdometer.Transcript

open Lines

variable {V P C : Type} (json : Json V P C) (source : Source) (request : TranscriptRequest)
  (offset₀ start₀ : Nat)

/-- A position from which a page can be read: inside the line which starts at `start₀`. -/
structure Position : Prop where
  start_le : start₀ ≤ offset₀
  offset_le : offset₀ ≤ source.bytes.length
  boundary : start₀ = 0 ∨ source.bytes[start₀ - 1]? = some lineFeed
  inside : lineFeed ∉ between source.bytes start₀ offset₀

/-- Whether the pages before this one lack something. -/
def TranscriptRequest.lacks (request : TranscriptRequest) : Bool :=
  request.cursor.any TranscriptCursor.isPartial

/-- The cursor of a page whose records end at `finish`. -/
structure NextCursor (page : TranscriptPage P C) (finish : Nat) (cursor : TranscriptCursor) :
    Prop where
  sessionId : cursor.sessionId = request.sessionId
  sourceId : cursor.sourceId = source.sourceId
  generation : cursor.generation = source.generation
  recordStart : cursor.recordStart = finish
  progress : offset₀ < cursor.offset
  offset_lt : cursor.offset < source.bytes.length
  position : Position source cursor.offset cursor.recordStart
  clean : cursor.isPartial = false →
    request.lacks = false ∧ ∀ record ∈ page.records, record.rawJson.isSome
  stopped : page.records.length < recordLimit request →
    cursor.offset = offset₀ + maxScanBytes ∨
      (page.records ≠ [] ∧ ∃ next, next ≤ offset₀ + maxScanBytes ∧
        next ≤ source.bytes.length ∧ IsLine lineFeed (between source.bytes finish next))

/-- A page whose records end at `finish`. -/
structure PageContents (page : TranscriptPage P C) (finish : Nat) : Prop where
  tiles : Tiles lineFeed source.bytes
    (fun pos line record ↦ record = lineRecord json source request offset₀ start₀ pos line)
    start₀ page.records finish
  empty : page.records = [] →
    lineFeed ∉ between source.bytes start₀
      (min (offset₀ + maxScanBytes) source.bytes.length)
  finish_le : finish ≤ offset₀ + maxScanBytes
  budgeted : "page_budget_too_small" ∉ page.issues
  next : ∀ cursor ∈ page.nextCursor, NextCursor source request offset₀ page finish cursor
  last : page.nextCursor = none → lineFeed ∉ source.bytes.drop finish
  complete : page.sourceComplete = true → page.nextCursor = none ∧
    finish = source.bytes.length ∧ request.lacks = false ∧
      ∀ record ∈ page.records, record.rawJson.isSome

variable {json source request offset₀ start₀} {scan : Scan P C} {page : TranscriptPage P C}

/-- Records end where a line starts. -/
theorem Position.boundary_of_tiles {β : Type} {R : Nat → List UInt8 → β → Prop} {items : List β}
    {finish : Nat} (h : Position source offset₀ start₀)
    (htiles : Tiles lineFeed source.bytes R start₀ items finish) :
    finish = 0 ∨ source.bytes[finish - 1]? = some lineFeed := by
  by_cases hitems : items = []
  · subst hitems
    rw [htiles.eq_of_nil]
    exact h.boundary
  · exact .inr (htiles.getElem?_pred hitems)

/-- The variables before the loop meet the invariant. -/
theorem Position.going (h : Position source offset₀ start₀) (hanchor : request.recordId = none) :
    (Scan.initial json source request offset₀ start₀).Going json source request offset₀ start₀ := by
  refine ⟨⟨h.start_le, h.offset_le, rfl, Nat.zero_le _, ?_, ?_⟩, h.inside,
    ⟨.nil, Nat.le_refl _, fun _ ↦ rfl, fun hne ↦ absurd rfl hne, ?_, ?_, ?_, rfl, rfl⟩⟩
  · show decide (start₀ < offset₀) = isOversized offset₀ start₀ start₀ (offset₀ - start₀)
    by_cases hlt : start₀ < offset₀
    · simp [isOversized, hlt]
    · have hzero : offset₀ - start₀ = 0 := by omega
      simp [isOversized, hlt, hzero]
  · intro hover
    have heq : start₀ = offset₀ := by
      have hstart := h.start_le
      have hnot : ¬start₀ < offset₀ := of_decide_eq_false hover
      omega
    show [] = between source.bytes start₀ offset₀
    rw [heq, between_self]
  · show (firstPage request offset₀ : TranscriptPage P C).issues = [] ↔ _
    cases hlacks : request.cursor.any TranscriptCursor.isPartial <;>
      simp [firstPage, hanchor, hlacks, Scan.initial]
  · show (firstPage request offset₀ : TranscriptPage P C).availability = .partially ↔
      (firstPage request offset₀ : TranscriptPage P C).issues ≠ []
    cases hlacks : request.cursor.any TranscriptCursor.isPartial <;>
      simp [firstPage, hanchor, hlacks]
  · show "page_budget_too_small" ∉ (firstPage request offset₀ : TranscriptPage P C).issues
    cases hlacks : request.cursor.any TranscriptCursor.isPartial <;>
      simp [firstPage, hanchor, hlacks]

/-! ### The page of a loop which ended -/

theorem records_continued {oversized : Bool} :
    (page.continued oversized).records = page.records := by
  unfold TranscriptPage.continued
  split <;> rfl

theorem nextCursor_continued {oversized : Bool} :
    (page.continued oversized).nextCursor = none ↔ page.nextCursor = none := by
  unfold TranscriptPage.continued
  split <;> simp

theorem sourceComplete_continued {oversized : Bool} :
    (page.continued oversized).sourceComplete = page.sourceComplete := by
  unfold TranscriptPage.continued
  split <;> rfl

theorem budgeted_continued (oversized : Bool) (h : "page_budget_too_small" ∉ page.issues) :
    "page_budget_too_small" ∉ (page.continued oversized).issues := by
  unfold TranscriptPage.continued
  split
  · simp [h]
  · exact h

/-- The cursor after a line which goes on, up to its flag. -/
theorem mem_nextCursor_continued {oversized : Bool} {cursor : TranscriptCursor}
    (h : cursor ∈ (page.continued oversized).nextCursor) :
    ∃ plain ∈ page.nextCursor, cursor = { plain with isPartial := cursor.isPartial } ∧
      (cursor.isPartial = false → plain.isPartial = false) := by
  unfold TranscriptPage.continued at h
  split at h
  · obtain ⟨plain, hplain, rfl⟩ := Option.mem_map.mp h
    exact ⟨plain, hplain, rfl, fun hunclosed ↦ nomatch hunclosed⟩
  · exact ⟨cursor, h, rfl, id⟩

theorem records_close : (scan.close source request).records = scan.page.records := by
  unfold Scan.close
  split
  · rfl
  · split <;> rfl

theorem issues_close : (scan.close source request).issues = scan.page.issues := by
  unfold Scan.close
  split
  · rfl
  · split <;> rfl

/-- The facts about a loop which ended before the end of the file, or at it. -/
structure Settled (json : Json V P C) (source : Source) (request : TranscriptRequest)
    (offset₀ start₀ : Nat) (scan : Scan P C) : Prop where
  collected : scan.Collected json source request offset₀ start₀
  position : Position source scan.offset scan.start
  start_le : scan.start ≤ offset₀ + maxScanBytes
  progress : scan.offset < source.bytes.length → offset₀ < scan.offset
  empty : scan.page.records = [] →
    lineFeed ∉ between source.bytes start₀
      (min (offset₀ + maxScanBytes) source.bytes.length)
  stopped : scan.offset < source.bytes.length →
    scan.page.records.length < recordLimit request →
      scan.offset = offset₀ + maxScanBytes ∨
        (scan.page.records ≠ [] ∧ ∃ next, next ≤ offset₀ + maxScanBytes ∧
          next ≤ source.bytes.length ∧ IsLine lineFeed (between source.bytes scan.start next))

/-- A loop which goes on has passed the start of the read or stands at it. -/
theorem Scan.Going.position (h : scan.Going json source request offset₀ start₀)
    (hposition : Position source offset₀ start₀) : Position source scan.offset scan.start :=
  ⟨h.reading.start_le, h.reading.offset_le, hposition.boundary_of_tiles h.collected.tiles,
    h.inside⟩

theorem Scan.Reading.start_le_bound (h : scan.Reading source offset₀ start₀) :
    scan.start ≤ offset₀ + maxScanBytes := by
  have hstart := h.start_le
  have hoffset := h.offset_eq
  have hscanned := h.scanned_le
  omega

theorem Scan.Going.settled_of_bound (h : scan.Going json source request offset₀ start₀)
    (hposition : Position source offset₀ start₀) (hscanned : scan.scanned = maxScanBytes) :
    Settled json source request offset₀ start₀ scan := by
  have hoffset : scan.offset = offset₀ + maxScanBytes := by
    rw [h.reading.offset_eq, hscanned]
  refine ⟨h.collected, h.position hposition, h.reading.start_le_bound, ?_, ?_,
    fun _ _ ↦ .inl hoffset⟩
  · intro _
    have hpos : 0 < maxScanBytes := by decide
    omega
  · intro hrecords
    have hstart : scan.start = start₀ := by
      have htiles := h.collected.tiles
      rw [hrecords] at htiles
      exact htiles.eq_of_nil
    have hend : min (offset₀ + maxScanBytes) source.bytes.length = scan.offset := by
      have hle := h.reading.offset_le
      omega
    rw [hend, ← hstart]
    exact h.inside

theorem Scan.Going.settled_of_full (h : scan.Going json source request offset₀ start₀)
    (hposition : Position source offset₀ start₀)
    (hfull : recordLimit request ≤ scan.page.records.length) :
    Settled json source request offset₀ start₀ scan := by
  have hlimit : 1 ≤ recordLimit request := le_max_left _ _
  have hrecords : scan.page.records ≠ [] := by
    intro hnil
    rw [hnil, List.length_nil] at hfull
    omega
  refine ⟨h.collected, h.position hposition, h.reading.start_le_bound, ?_,
    fun hnil ↦ absurd hnil hrecords, fun _ hlt ↦ absurd hlt (by omega)⟩
  intro _
  exact Nat.lt_of_lt_of_le (h.collected.pushed hrecords) h.reading.start_le

theorem settled_of_deferred (hreading : scan.Reading source offset₀ start₀)
    (hcollected : scan.Collected json source request offset₀ start₀)
    (hposition : Position source offset₀ start₀) (hrecords : scan.page.records ≠ [])
    (hline : IsLine lineFeed (between source.bytes scan.start scan.offset)) :
    Settled json source request offset₀ start₀ { scan with offset := scan.start } := by
  have hstart := hreading.start_le
  have hoffset := hreading.offset_le
  refine ⟨⟨hcollected.tiles, hcollected.returned_le, hcollected.returned_eq, hcollected.pushed,
      hcollected.issues, hcollected.availability, hcollected.budgeted, hcollected.nextCursor,
      hcollected.sourceComplete⟩,
    ⟨Nat.le_refl _, Nat.le_trans hstart hoffset, hposition.boundary_of_tiles hcollected.tiles, ?_⟩,
    hreading.start_le_bound, fun _ ↦ hcollected.pushed hrecords,
    fun hnil ↦ absurd hnil hrecords, fun _ _ ↦ .inr ⟨hrecords, scan.offset, ?_, hoffset, hline⟩⟩
  · show lineFeed ∉ between source.bytes scan.start scan.start
    rw [between_self]
    exact List.not_mem_nil
  · have hscanned := hreading.scanned_le
    rw [hreading.offset_eq]
    omega

/-- The page of a loop which is settled. -/
theorem Settled.pageContents (h : Settled json source request offset₀ start₀ scan)
    (oversized : Bool) :
    PageContents json source request offset₀ start₀
      ((scan.close source request).continued oversized) scan.start := by
  have hcollected := h.collected
  have hclean : scan.page.issues = [] → request.lacks = false ∧
      ∀ record ∈ scan.page.records, record.rawJson.isSome := hcollected.issues.mp
  have hrecords : ((scan.close source request).continued oversized).records =
      scan.page.records := by rw [records_continued, records_close]
  refine ⟨?_, ?_, h.start_le, budgeted_continued oversized ?_, ?_, ?_, ?_⟩
  · rw [hrecords]
    exact hcollected.tiles
  · rw [hrecords]
    exact h.empty
  · rw [issues_close]
    exact hcollected.budgeted
  · intro cursor hcursor
    obtain ⟨plain, hplain, hsame, hunclosed⟩ := mem_nextCursor_continued hcursor
    have hoffset : scan.offset < source.bytes.length := by
      by_contra hend
      rw [Scan.close, if_neg hend] at hplain
      split at hplain <;> exact absurd hplain (by simp [hcollected.nextCursor])
    rw [Scan.close, if_pos hoffset, Option.mem_some_iff] at hplain
    subst hplain
    rw [hsame]
    refine ⟨rfl, rfl, rfl, rfl, h.progress hoffset, hoffset, h.position, ?_, ?_⟩
    · intro hfalse
      have havailable : ¬scan.page.availability = .partially := by
        simpa [Scan.cursor] using hunclosed hfalse
      rw [hcollected.availability, not_not] at havailable
      rw [hrecords]
      exact hclean havailable
    · rw [hrecords]
      exact h.stopped hoffset
  · rw [nextCursor_continued]
    intro hnone
    have hend : ¬scan.offset < source.bytes.length := by
      intro hlt
      rw [Scan.close, if_pos hlt] at hnone
      cases hnone
    have hoffset : scan.offset = source.bytes.length := by
      have hle := h.position.offset_le
      omega
    have hdrop := between_append_drop source.bytes h.position.start_le
    rw [hoffset, List.drop_length, List.append_nil, ← hoffset] at hdrop
    rw [← hdrop]
    exact h.position.inside
  · rw [sourceComplete_continued, nextCursor_continued, hrecords]
    intro hcomplete
    by_cases hoffset : scan.offset < source.bytes.length
    · rw [Scan.close, if_pos hoffset] at hcomplete
      exact absurd hcomplete (by simp [hcollected.sourceComplete])
    · rw [Scan.close, if_neg hoffset] at hcomplete ⊢
      by_cases hstart : scan.offset = scan.start
      · rw [if_pos hstart] at hcomplete ⊢
        have hle := h.position.offset_le
        exact ⟨hcollected.nextCursor, by omega, hclean (List.isEmpty_iff.mp hcomplete)⟩
      · rw [if_neg hstart] at hcomplete
        exact absurd hcomplete (by simp [hcollected.sourceComplete])

theorem offset_atEnd : scan.atEnd.offset = scan.offset := by
  unfold Scan.atEnd
  split <;> rfl

theorem start_atEnd : scan.atEnd.start = scan.start := by
  unfold Scan.atEnd
  split <;> rfl

theorem records_atEnd : scan.atEnd.page.records = scan.page.records := by
  unfold Scan.atEnd
  split <;> rfl

theorem nextCursor_atEnd : scan.atEnd.page.nextCursor = scan.page.nextCursor := by
  unfold Scan.atEnd
  split <;> rfl

theorem budgeted_atEnd (h : "page_budget_too_small" ∉ scan.page.issues) :
    "page_budget_too_small" ∉ scan.atEnd.page.issues := by
  unfold Scan.atEnd
  split
  · simp [h]
  · exact h

/-- Within a line the end of the file leaves the source incomplete. -/
theorem sourceComplete_atEnd (h : scan.Collected json source request offset₀ start₀)
    (hcomplete : scan.atEnd.page.sourceComplete = true) :
    ¬scan.start < scan.offset ∧ scan.page.issues = [] := by
  unfold Scan.atEnd at hcomplete
  split at hcomplete
  · exact absurd hcomplete (by simp [h.sourceComplete])
  · exact ⟨‹_›, List.isEmpty_iff.mp hcomplete⟩

theorem issues_atEnd (h : ¬scan.start < scan.offset) :
    scan.atEnd.page.issues = scan.page.issues := by
  unfold Scan.atEnd
  rw [if_neg h]

/-- The page of a loop which read the whole file. -/
theorem Scan.Going.pageContents_atEnd (h : scan.Going json source request offset₀ start₀)
    (hend : scan.offset = source.bytes.length) (oversized : Bool) :
    PageContents json source request offset₀ start₀
      ((scan.atEnd.close source request).continued oversized) scan.start := by
  have hcollected := h.collected
  have hdrop : between source.bytes scan.start source.bytes.length =
      source.bytes.drop scan.start := by
    have happend := between_append_drop source.bytes h.reading.start_le
    rwa [hend, List.drop_length, List.append_nil] at happend
  have hinside : lineFeed ∉ source.bytes.drop scan.start := by
    rw [← hdrop, ← hend]
    exact h.inside
  have hoffset : ¬scan.atEnd.offset < source.bytes.length := by
    rw [offset_atEnd]
    omega
  have hrecords : ((scan.atEnd.close source request).continued oversized).records =
      scan.page.records := by rw [records_continued, records_close, records_atEnd]
  have hnext : ((scan.atEnd.close source request).continued oversized).nextCursor = none := by
    rw [nextCursor_continued, Scan.close, if_neg hoffset]
    split <;> exact nextCursor_atEnd.trans hcollected.nextCursor
  refine ⟨?_, ?_, h.reading.start_le_bound, budgeted_continued oversized ?_, ?_,
    fun _ ↦ hinside, ?_⟩
  · rw [hrecords]
    exact hcollected.tiles
  · rw [hrecords]
    intro hnil
    have hstart : scan.start = start₀ := by
      have htiles := hcollected.tiles
      rw [hnil] at htiles
      exact htiles.eq_of_nil
    intro hmem
    have hsub : between source.bytes start₀ (min (offset₀ + maxScanBytes) source.bytes.length) <:+:
        source.bytes.drop start₀ := (List.take_prefix _ _).isInfix
    rw [← hstart] at hsub hmem
    exact hinside (hsub.subset hmem)
  · rw [issues_close]
    exact budgeted_atEnd hcollected.budgeted
  · rw [hnext]
    exact fun _ hmem ↦ nomatch hmem
  · rw [hrecords, hnext, sourceComplete_continued, Scan.close, if_neg hoffset]
    intro hcomplete
    have hfacts : ¬scan.start < scan.offset ∧ scan.page.issues = [] := by
      by_cases hstart : scan.atEnd.offset = scan.atEnd.start
      · rw [if_pos hstart] at hcomplete
        rw [offset_atEnd, start_atEnd] at hstart
        have hnot : ¬scan.start < scan.offset := by omega
        refine ⟨hnot, ?_⟩
        rw [← issues_atEnd hnot]
        exact List.isEmpty_iff.mp hcomplete
      · rw [if_neg hstart] at hcomplete
        exact sourceComplete_atEnd hcollected hcomplete
    have hle := h.reading.start_le
    exact ⟨rfl, by omega, hcollected.issues.mp hfacts.2⟩

/-- A loop which ended leaves a page with these contents. -/
theorem Scan.Ended.pageContents (h : scan.Ended json source request offset₀ start₀)
    (hposition : Position source offset₀ start₀) (oversized : Bool) :
    ∃ finish, PageContents json source request offset₀ start₀
      ((scan.close source request).continued oversized) finish := by
  cases h with
  | bound hgoing hscanned =>
    exact ⟨_, (hgoing.settled_of_bound hposition hscanned).pageContents oversized⟩
  | full hgoing hrecords =>
    exact ⟨_, (hgoing.settled_of_full hposition hrecords).pageContents oversized⟩
  | deferred hreading hcollected hrecords hline =>
    exact ⟨_, (settled_of_deferred hreading hcollected hposition hrecords hline).pageContents
      oversized⟩
  | atEnd hgoing hend => exact ⟨_, hgoing.pageContents_atEnd hend oversized⟩

variable (json) (available : Nat → Nat)

/-- A read has these contents or fails for its budget. -/
theorem Position.readFrom (h : Position source offset₀ start₀) (hanchor : request.recordId = none) :
    (∃ page finish,
        readFrom json source request available source.generation offset₀ start₀ = .ok page ∧
          PageContents json source request offset₀ start₀ page finish) ∨
      ((Crowded json source request ∨
          byteLimit request ≤ json.pageBytes (envelope source request)) ∧
        readFrom json source request available source.generation offset₀ start₀ =
          .error (emptyPage .partially "page_budget_too_small")) := by
  unfold Transcript.readFrom
  by_cases hbudget : json.pageBytes (envelope source request) < byteLimit request
  · rcases (h.going hanchor).run available h.start_le hanchor with
      ⟨scan, hrun, hended⟩ | ⟨hcrowded, hrun⟩
    · obtain ⟨finish, hcontents⟩ :=
        hended.pageContents h scan.oversized
      refine .inl ⟨_, finish, ?_, hcontents⟩
      simp [require, hbudget, hrun, bind, Except.bind, pure, Except.pure]
    · refine .inr ⟨.inl hcrowded, ?_⟩
      simp [require, hbudget, hrun, bind, Except.bind]
  · refine .inr ⟨.inr (Nat.le_of_not_lt hbudget), ?_⟩
    simp [require, hbudget, bind, Except.bind]

/-- The position which a request names. -/
def TranscriptRequest.offset (request : TranscriptRequest) : Nat :=
  (request.cursor.map TranscriptCursor.offset).getD 0

/-- The start of the record in which a request goes on. -/
def TranscriptRequest.start (request : TranscriptRequest) : Nat :=
  (request.cursor.map TranscriptCursor.recordStart).getD 0

/-- A request whose cursor, if it has one, is of this session, source and generation. -/
structure Requested (source : Source) (request : TranscriptRequest) : Prop where
  anchor : request.recordId = none
  cursor : ∀ cursor ∈ request.cursor, cursor.sessionId = request.sessionId ∧
    cursor.sourceId = source.sourceId ∧ cursor.generation = source.generation
  position : Position source request.offset request.start

theorem Requested.positioned (h : Requested source request) :
    (positioned source request : Except (TranscriptPage P C) (Nat × Nat)) =
      .ok (request.offset, request.start) := by
  have hposition := h.position
  have hcursor := h.cursor
  unfold Transcript.positioned anchored
  rw [h.anchor]
  unfold TranscriptRequest.offset TranscriptRequest.start at *
  cases hrequest : request.cursor with
  | none => rfl
  | some cursor =>
    rw [hrequest] at hposition hcursor
    obtain ⟨hsession, hsource, hgeneration⟩ := hcursor cursor rfl
    have hoffset : cursor.offset ≤ source.bytes.length := hposition.offset_le
    have hstart : cursor.recordStart ≤ cursor.offset := hposition.start_le
    simp [checkCursor, require, hsession, hsource, hgeneration, hoffset, hstart, Except.bind,
      Except.map]

theorem Position.checkBoundary (h : Position source offset₀ start₀) :
    (checkBoundary source start₀ : Except (TranscriptPage P C) Unit) = .ok () := by
  have hcheck : (start₀ == 0 || source.bytes[start₀ - 1]? == some lineFeed) = true := by
    simpa using h.boundary
  unfold Transcript.checkBoundary
  rw [hcheck]
  rfl

/-- A page which is asked for rightly has its contents or fails for its budget. -/
theorem Requested.page_cases (h : Requested source request) {expected : Option String}
    (hexpected : ∀ generation ∈ expected, generation = source.generation) :
    (∃ finish, PageContents json source request request.offset request.start
        (readPageInner json source request expected available source.generation) finish) ∨
      ((Crowded json source request ∨
          byteLimit request ≤ json.pageBytes (envelope source request)) ∧
        readPageInner json source request expected available source.generation =
          emptyPage .partially "page_budget_too_small") := by
  have hcheck : (!expected.any (· ≠ source.generation)) = true := by
    cases expected with
    | none => rfl
    | some generation => simpa using hexpected generation rfl
  have hread : readPageInner json source request expected available source.generation =
      settled (readFrom json source request available source.generation request.offset
        request.start) := by
    unfold Transcript.readPageInner
    simp only [hcheck, require, if_true, h.positioned, h.position.checkBoundary, bind, Except.bind]
  rw [hread]
  rcases h.position.readFrom json available h.anchor with
    ⟨page, finish, hpage, hcontents⟩ | ⟨hcause, hpage⟩
  · rw [hpage]
    exact .inl ⟨finish, hcontents⟩
  · rw [hpage]
    exact .inr ⟨hcause, rfl⟩

end AgentOdometer.Transcript
