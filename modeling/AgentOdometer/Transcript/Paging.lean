import AgentOdometer.Transcript.PageContents
import AgentOdometer.Transcript.RecordIds

/-!
# Paging through a transcript

A client follows `next_cursor` from the start of a file. The pages always tile the complete
lines and end; a line which could be shown is shown unless a page ends inside it.
-/

namespace AgentOdometer.Transcript

open Text Lines

variable {V P C : Type} (json : Json V P C) (source : Source) (sessionId : String)

/-- What a client chooses for one page, how the file is buffered during the read, and whether
the caller verifies the generation. -/
structure PageLimits where
  maxRecords : Option Nat
  maxBytes : Option Nat
  available : Nat → Nat
  verified : Bool

/-- The request for one page. -/
def PageLimits.request (limits : PageLimits) (cursor : Option TranscriptCursor) :
    TranscriptRequest where
  sessionId := sessionId
  cursor := cursor
  maxRecords := limits.maxRecords
  maxBytes := limits.maxBytes
  recordId := none

/-- A request with its answer. -/
structure Exchange (P C : Type) where
  request : TranscriptRequest
  page : TranscriptPage P C

/-- One page of a file which does not change. -/
def PageLimits.exchange (limits : PageLimits) (cursor : Option TranscriptCursor) :
    Exchange P C where
  request := limits.request sessionId cursor
  page := readPageInner json source (limits.request sessionId cursor)
    (if limits.verified then some source.generation else none) limits.available source.generation

/-- Follow the cursors until a page has none; `none` when the pages are not enough. -/
def follow (limits : Nat → PageLimits) :
    Nat → Nat → Option TranscriptCursor → Option (List (Exchange P C))
  | 0, _, _ => none
  | pages + 1, index, cursor =>
      let exchange := (limits index).exchange json source sessionId cursor
      match exchange.page.nextCursor with
      | none => some [exchange]
      | some next => (follow limits pages (index + 1) (some next)).map (exchange :: ·)

/-- The records of a run. -/
def recordsOf (exchanges : List (Exchange P C)) : List (TranscriptRecord P C) :=
  exchanges.flatMap fun exchange ↦ exchange.page.records

/-- The bytes which a record stands for. -/
def Source.slice (record : TranscriptRecord P C) : List UInt8 :=
  between source.bytes record.byteOffset (record.byteOffset + record.byteLength)

/-- A record carries exactly the bytes it stands for. -/
def Source.Carries (record : TranscriptRecord P C) : Prop :=
  ∃ text, record.rawJson = some text ∧ utf8 text = source.slice record

/-- A line whose body a page can show: complete, at most 64 KiB, JSON, and its record fits. -/
structure Showable (request : TranscriptRequest) (start : Nat) (line : List UInt8) : Prop where
  isLine : IsLine lineFeed line
  length_le : line.length ≤ maxRecordBytes
  readable : (readJson json line).isSome
  fits : Fits json source request (fullRecord json source start line)

/-- No page is answered `page_budget_too_small`. -/
def Budgeted (exchanges : List (Exchange P C)) : Prop :=
  ∀ exchange ∈ exchanges, "page_budget_too_small" ∉ exchange.page.issues

/-- The pages of a run tile the complete lines, show every line which they can show, and call
the source complete only when they have shown all of it. -/
structure PagesComplete (exchanges : List (Exchange P C)) : Prop where
  lines : (recordsOf exchanges).map source.slice = (splitLines lineFeed source.bytes).1
  first : ∀ record ∈ (recordsOf exchanges).head?, record.byteOffset = 0
  offsets : (recordsOf exchanges).IsChain fun record next ↦
    next.byteOffset = record.byteOffset + record.byteLength
  bodies : ∀ exchange ∈ exchanges, ∀ record ∈ exchange.page.records,
    Showable json source exchange.request record.byteOffset (source.slice record) →
      source.Carries record
  complete : ∀ exchange ∈ exchanges, exchange.page.sourceComplete = true →
    (∀ record ∈ recordsOf exchanges, source.Carries record) ∧
      (splitLines lineFeed source.bytes).2 = []

/-- No page starts strictly inside a line which it could show. -/
def ResumesOutside (exchanges : List (Exchange P C)) : Prop :=
  ∀ exchange ∈ exchanges, ∀ cursor ∈ exchange.request.cursor,
    cursor.recordStart < cursor.offset →
      ¬Showable json source exchange.request cursor.recordStart
        (readUntil lineFeed (source.bytes.drop cursor.recordStart))

variable {json source sessionId} {limits : Nat → PageLimits}
  {cursor : Option TranscriptCursor} {exchanges : List (Exchange P C)}

/-! ### One exchange -/

/-- What is known of an exchange whose page is not a failure. -/
def Exchange.Holds (json : Json V P C) (source : Source) (exchange : Exchange P C) : Prop :=
  exchange.request.start ≤ exchange.request.offset ∧
    ∃ finish, PageContents json source exchange.request exchange.request.offset
      exchange.request.start exchange.page finish

/-- A record stands for the line at its offset, with its body or without one. -/
def StandsFor (pos : Nat) (line : List UInt8)
    (record : TranscriptRecord P C) : Prop :=
  record.byteOffset = pos ∧ record.byteLength = line.length ∧
    ∀ text, record.rawJson = some text → utf8 text = line

theorem standsFor_lineRecord {request : TranscriptRequest} {offset₀ start₀ pos : Nat}
    {line : List UInt8} :
    StandsFor pos line (lineRecord json source request offset₀ start₀ pos line) :=
  ⟨byteOffset_lineRecord, byteLength_lineRecord, fun _ h ↦ utf8_of_rawJson_lineRecord h⟩

theorem slice_of_standsFor {pos : Nat} {line : List UInt8} {record : TranscriptRecord P C}
    (h : StandsFor pos line record) (hpart : line <+: source.bytes.drop pos) :
    source.slice record = line := by
  unfold Source.slice
  rw [h.1, h.2.1]
  exact between_of_isPrefix hpart

/-- The line which starts at a position is what is read from there. -/
theorem readUntil_drop_eq {pos : Nat} {line : List UInt8} (hline : IsLine lineFeed line)
    (hpart : line <+: source.bytes.drop pos) :
    readUntil lineFeed (source.bytes.drop pos) = line := by
  obtain ⟨rest, hrest⟩ := hpart
  rw [← hrest]
  exact readUntil_isLine_append hline

theorem readJson_isSome_iff {line : List UInt8} :
    (readJson json line).isSome ↔ ∃ text value, readJson json line = some (text, value) := by
  rw [Option.isSome_iff_exists, Prod.exists]

/-- A line which a page can show and in which the page does not start is shown. -/
theorem carries_of_showable {request : TranscriptRequest} {offset₀ start₀ pos : Nat}
    {line : List UInt8} (hpart : line <+: source.bytes.drop pos)
    (hshowable : Showable json source request pos line)
    (houtside : ¬(pos = start₀ ∧ start₀ < offset₀)) :
    source.Carries (lineRecord json source request offset₀ start₀ pos line) := by
  have hover : isOversized offset₀ start₀ pos line.length = false := by
    have hle := hshowable.length_le
    rw [isOversized, Bool.or_eq_false_iff]
    constructor
    · simpa using houtside
    · rw [decide_eq_false_iff_not]
      omega
  have hfull := lineRecord_eq_fullRecord hover hshowable.fits
  obtain ⟨text, value, hread⟩ := readJson_isSome_iff.mp hshowable.readable
  refine ⟨text, ?_, ?_⟩
  · rw [hfull, fullRecord, rawJson_transcriptRecord, hread]
    rfl
  · rw [slice_of_standsFor standsFor_lineRecord hpart]
    exact fromUtf8_eq_some (readJson_eq_some hread).1

/-- A page which starts inside a line which it could show gives up its body. -/
theorem Exchange.Holds.exists_uncarried {exchange : Exchange P C} (h : exchange.Holds json source)
    {next : TranscriptCursor} (hcursor : exchange.request.cursor = some next)
    (hinside : next.recordStart < next.offset)
    (hshowable : Showable json source exchange.request next.recordStart
      (readUntil lineFeed (source.bytes.drop next.recordStart))) :
    ∃ record ∈ exchange.page.records,
      Showable json source exchange.request record.byteOffset (source.slice record) ∧
        ¬source.Carries record := by
  obtain ⟨-, finish, hcontents⟩ := h
  have hstart : exchange.request.start = next.recordStart := by
    rw [TranscriptRequest.start, hcursor]
    rfl
  have hoffset : exchange.request.offset = next.offset := by
    rw [TranscriptRequest.offset, hcursor]
    rfl
  rw [hstart, hoffset] at hcontents
  have hread : readUntil lineFeed (source.bytes.drop next.recordStart) <+:
      source.bytes.drop next.recordStart := readUntil_isPrefix _
  have hrecords : exchange.page.records ≠ [] := by
    intro hnil
    have hempty := hcontents.empty hnil
    apply hempty
    have hlength := hshowable.length_le
    have hmax : maxRecordBytes < maxScanBytes := by decide
    have hfile := hread.length_le
    rw [List.length_drop] at hfile
    have hpart : readUntil lineFeed (source.bytes.drop next.recordStart) <+:
        between source.bytes next.recordStart
          (min (next.offset + maxScanBytes) source.bytes.length) := by
      refine List.prefix_of_prefix_length_le hread (List.take_prefix _ _) ?_
      rw [length_between (Nat.min_le_right _ _)]
      omega
    exact hpart.subset (List.mem_of_getLast? hshowable.isLine.getLast?)
  obtain ⟨record, hmem, line, hline, hpart, hrecord⟩ := hcontents.tiles.head hrecords
  have hsame := readUntil_drop_eq hline hpart
  rw [hsame] at hshowable
  have hstands : StandsFor next.recordStart line record := by
    rw [hrecord]
    exact standsFor_lineRecord
  refine ⟨record, hmem, ?_, ?_⟩
  · rw [slice_of_standsFor hstands hpart, hstands.1]
    exact hshowable
  · rintro ⟨text, hraw, -⟩
    have hnone : record.rawJson = none := by
      rw [hrecord]
      apply rawJson_lineRecord_of_oversized
      simp [isOversized, hinside]
    rw [hnone] at hraw
    cases hraw

/-- Over a run: the lines which can be shown are shown exactly when no page starts inside one. -/
theorem bodies_iff (hholds : ∀ exchange ∈ exchanges, exchange.Holds json source) :
    (∀ exchange ∈ exchanges, ∀ record ∈ exchange.page.records,
        Showable json source exchange.request record.byteOffset (source.slice record) →
          source.Carries record) ↔
      ResumesOutside json source exchanges := by
  constructor
  · intro hbodies exchange hexchange next hcursor hinside hshowable
    obtain ⟨record, hmem, hcan, hnot⟩ :=
      (hholds exchange hexchange).exists_uncarried hcursor hinside hshowable
    exact hnot (hbodies exchange hexchange record hmem hcan)
  · intro houtside exchange hexchange record hmem hshowable
    obtain ⟨-, finish, hcontents⟩ := hholds exchange hexchange
    obtain ⟨pos, line, -, hline, hpart, hrecord⟩ := hcontents.tiles.exists_of_mem hmem
    have hstands : StandsFor pos line record := by
      rw [hrecord]
      exact standsFor_lineRecord
    rw [slice_of_standsFor hstands hpart, hstands.1] at hshowable
    rw [hrecord]
    refine carries_of_showable hpart hshowable ?_
    rintro ⟨hpos, hlt⟩
    cases hcursor : exchange.request.cursor with
    | none =>
      rw [TranscriptRequest.offset, hcursor] at hlt
      exact absurd hlt (Nat.not_lt_zero _)
    | some next =>
      rw [TranscriptRequest.start, hcursor] at hpos hlt
      rw [TranscriptRequest.offset, hcursor] at hlt
      refine houtside exchange hexchange next hcursor hlt ?_
      have hstart : pos = next.recordStart := hpos
      rw [← hstart, readUntil_drop_eq hline hpart]
      exact hshowable

/-! ### A run of pages -/

/-- What is known of a run whose first page is read from `start`, after pages which lack
something or not. -/
structure RunHolds (json : Json V P C) (source : Source) (lacks : Bool) (start : Nat)
    (exchanges : List (Exchange P C)) : Prop where
  holds : ∀ exchange ∈ exchanges, exchange.Holds json source
  tiles : ∃ finish, Tiles lineFeed source.bytes StandsFor start (recordsOf exchanges) finish ∧
    lineFeed ∉ source.bytes.drop finish ∧
      ∀ exchange ∈ exchanges, exchange.page.sourceComplete = true → lacks = false ∧
        (∀ record ∈ recordsOf exchanges, record.rawJson.isSome) ∧ finish = source.bytes.length

theorem tiles_standsFor {request : TranscriptRequest} {offset₀ start₀ finish : Nat}
    {page : TranscriptPage P C}
    (h : PageContents json source request offset₀ start₀ page finish) :
    Tiles lineFeed source.bytes StandsFor start₀ page.records finish :=
  h.tiles.mono fun _ _ _ _ hrecord ↦ hrecord ▸ standsFor_lineRecord

/-- The last page of a run. -/
theorem runHolds_singleton {exchange : Exchange P C} (h : exchange.Holds json source)
    (hlast : exchange.page.nextCursor = none) :
    RunHolds json source exchange.request.lacks exchange.request.start [exchange] := by
  have hrecords : recordsOf [exchange] = exchange.page.records := List.append_nil _
  have hholds := h
  obtain ⟨-, finish, hcontents⟩ := hholds
  refine ⟨?_, finish, ?_, hcontents.last hlast, ?_⟩
  · rw [List.forall_mem_singleton]
    exact h
  · rw [hrecords]
    exact tiles_standsFor hcontents
  · rw [List.forall_mem_singleton, hrecords]
    intro hcomplete
    obtain ⟨-, hfinish, hlacks, hraw⟩ := hcontents.complete hcomplete
    exact ⟨hlacks, hraw, hfinish⟩

/-- A page with a cursor before the run from that cursor. -/
theorem RunHolds.cons {exchange : Exchange P C} {next : TranscriptCursor}
    (h : RunHolds json source next.isPartial next.recordStart exchanges)
    (hfirst : exchange.Holds json source) (hnext : exchange.page.nextCursor = some next) :
    RunHolds json source exchange.request.lacks exchange.request.start (exchange :: exchanges) := by
  have hrecords : recordsOf (exchange :: exchanges) =
      exchange.page.records ++ recordsOf exchanges := List.flatMap_cons
  obtain ⟨hholds, finish, htiles, htail, hcomplete⟩ := h
  have hpage := hfirst
  obtain ⟨-, middle, hcontents⟩ := hpage
  have hcursor := hcontents.next next hnext
  refine ⟨?_, finish, ?_, htail, ?_⟩
  · rw [List.forall_mem_cons]
    exact ⟨hfirst, hholds⟩
  · rw [hrecords]
    rw [hcursor.recordStart] at htiles
    exact (tiles_standsFor hcontents).append htiles
  · rw [List.forall_mem_cons]
    constructor
    · intro hsource
      have hnone := (hcontents.complete hsource).1
      rw [hnext] at hnone
      cases hnone
    · intro other hother hsource
      obtain ⟨hunclosed, hraw, hfinish⟩ := hcomplete other hother hsource
      obtain ⟨hlacks, hrawPage⟩ := hcursor.clean hunclosed
      rw [hrecords, List.forall_mem_append]
      exact ⟨hlacks, ⟨hrawPage, hraw⟩, hfinish⟩

/-- The start of a file can be asked for. -/
theorem requested_start (index : Nat) :
    Requested source ((limits index).request sessionId none) := by
  refine ⟨rfl, (fun _ h ↦ nomatch h), Nat.le_refl 0, Nat.zero_le _, .inl rfl, ?_⟩
  show lineFeed ∉ between source.bytes 0 0
  rw [between_self]
  exact List.not_mem_nil

/-- The cursor of a page can be asked for. -/
theorem NextCursor.requested {request : TranscriptRequest} {offset₀ finish : Nat}
    {page : TranscriptPage P C} {next : TranscriptCursor}
    (h : NextCursor source request offset₀ page finish next)
    (hsession : request.sessionId = sessionId) (index : Nat) :
    Requested source ((limits index).request sessionId (some next)) := by
  refine ⟨rfl, ?_, h.position⟩
  intro cursor hcursor
  cases hcursor
  exact ⟨h.sessionId.trans hsession, h.sourceId, h.generation⟩

variable (json) in
/-- An exchange which was asked for rightly holds or fails for its budget. -/
theorem exchange_cases {index : Nat}
    (h : Requested source ((limits index).request sessionId cursor)) :
    ((limits index).exchange json source sessionId cursor).Holds json source ∨
      ((limits index).exchange json source sessionId cursor).page =
        emptyPage .partially "page_budget_too_small" := by
  have hexpected : ∀ generation ∈ (if (limits index).verified then some source.generation
      else none), generation = source.generation := by
    intro generation hmem
    split at hmem
    · cases hmem
      rfl
    · cases hmem
  rcases h.page_cases json (limits index).available hexpected with ⟨finish, hcontents⟩ | hfail
  · exact .inl ⟨h.position.start_le, finish, hcontents⟩
  · exact .inr hfail.2

variable (json) in
/-- Following the cursors ends, and what the run holds, if no page fails for its budget. -/
theorem exists_follow {pages index : Nat}
    (hrequested : Requested source ((limits index).request sessionId cursor))
    (hpages : source.bytes.length <
      ((limits index).request sessionId cursor).offset + pages) :
    ∃ exchanges, follow json source sessionId limits pages index cursor = some exchanges ∧
      (Budgeted exchanges → RunHolds json source
        ((limits index).request sessionId cursor).lacks
        ((limits index).request sessionId cursor).start exchanges) := by
  induction pages generalizing index cursor with
  | zero =>
    have hle := hrequested.position.offset_le
    omega
  | succ pages ih =>
    generalize hexchange : (limits index).exchange json source sessionId cursor = exchange
    have hrequest : (limits index).request sessionId cursor = exchange.request := by
      rw [← hexchange]
      rfl
    have hcases := exchange_cases json hrequested
    rw [hexchange] at hcases
    rw [follow, hexchange]
    rcases hcases with hholds | hfail
    · have hkept := hholds
      cases hnext : exchange.page.nextCursor with
      | none =>
        refine ⟨[exchange], rfl, fun _ ↦ ?_⟩
        rw [hrequest]
        exact runHolds_singleton hholds hnext
      | some next =>
        obtain ⟨-, finish, hcontents⟩ := hkept
        have hcursor := hcontents.next next hnext
        have hlt : exchange.request.offset < next.offset := hcursor.progress
        have hsession : exchange.request.sessionId = sessionId := by rw [← hrequest]; rfl
        rw [hrequest] at hpages
        obtain ⟨rest, hrest, hrun⟩ := ih (hcursor.requested hsession (index + 1)) (by
          show source.bytes.length < next.offset + pages
          omega)
        refine ⟨exchange :: rest, by simp only [hrest, Option.map_some], ?_⟩
        intro hbudgeted
        rw [Budgeted, List.forall_mem_cons] at hbudgeted
        rw [hrequest]
        exact (hrun hbudgeted.2).cons hholds hnext
    · have hnext : exchange.page.nextCursor = none := by rw [hfail]; rfl
      refine ⟨[exchange], by simp only [hnext], fun hbudgeted ↦ ?_⟩
      rw [Budgeted, List.forall_mem_singleton, hfail] at hbudgeted
      exact absurd List.mem_cons_self hbudgeted

variable (json source sessionId limits) in
/-- Every request of a client leaves room for each record of the file without its body. -/
def Roomy : Prop :=
  ∀ index cursor, ¬Crowded json source ((limits index).request sessionId cursor) ∧
    json.pageBytes (envelope source ((limits index).request sessionId cursor)) <
      byteLimit ((limits index).request sessionId cursor)

/-- With room for a record no page fails for its budget. -/
theorem Roomy.holds (h : Roomy json source sessionId limits) {index : Nat}
    (hrequested : Requested source ((limits index).request sessionId cursor)) :
    ((limits index).exchange json source sessionId cursor).Holds json source := by
  have hexpected : ∀ generation ∈ (if (limits index).verified then some source.generation
      else none), generation = source.generation := by
    intro generation hmem
    split at hmem
    · cases hmem
      rfl
    · cases hmem
  rcases hrequested.page_cases json (limits index).available hexpected with
    ⟨finish, hcontents⟩ | ⟨hcause, -⟩
  · exact ⟨hrequested.position.start_le, finish, hcontents⟩
  · rcases hcause with hcrowded | hfull
    · exact absurd hcrowded (h index cursor).1
    · exact absurd hfull (Nat.not_le_of_lt (h index cursor).2)

theorem Roomy.budgeted (h : Roomy json source sessionId limits) {pages index : Nat}
    (hrequested : Requested source ((limits index).request sessionId cursor))
    (hfollow : follow json source sessionId limits pages index cursor = some exchanges) :
    Budgeted exchanges := by
  induction pages generalizing index cursor exchanges with
  | zero => cases hfollow
  | succ pages ih =>
    have hholds := h.holds hrequested
    obtain ⟨-, finish, hcontents⟩ := hholds
    rw [follow] at hfollow
    split at hfollow
    · cases hfollow
      rw [Budgeted, List.forall_mem_singleton]
      exact hcontents.budgeted
    · rename_i next hnext
      obtain ⟨rest, hrest, rfl⟩ := Option.map_eq_some_iff.mp hfollow
      have hcursor := hcontents.next next hnext
      rw [Budgeted, List.forall_mem_cons]
      exact ⟨hcontents.budgeted, ih (hcursor.requested rfl (index + 1)) hrest⟩

/-! ### The whole file -/

/-- A run from the start of the file. -/
theorem RunHolds.pagesComplete_iff (h : RunHolds json source false 0 exchanges) :
    PagesComplete json source exchanges ↔ ResumesOutside json source exchanges := by
  have hholds := h.holds
  obtain ⟨finish, htiles, htail, hcomplete⟩ := h.tiles
  have hlines := htiles.map_eq_splitLines htail
    fun _ _ _ _ hpart hstands ↦ slice_of_standsFor hstands hpart
  obtain ⟨hchain, hhead, -⟩ := htiles.isChain fun _ _ _ _ hstands ↦ ⟨hstands.1, hstands.2.1⟩
  constructor
  · intro hpages
    exact (bodies_iff hholds).mp hpages.bodies
  · intro houtside
    refine ⟨by rw [hlines], hhead, hchain, (bodies_iff hholds).mpr houtside, ?_⟩
    intro exchange hexchange hsource
    obtain ⟨-, hraw, hfinish⟩ := hcomplete exchange hexchange hsource
    constructor
    · intro record hmem
      obtain ⟨pos, line, -, -, hpart, hstands⟩ := htiles.exists_of_mem hmem
      obtain ⟨text, htext⟩ := Option.isSome_iff_exists.mp (hraw record hmem)
      exact ⟨text, htext, by rw [slice_of_standsFor hstands hpart, hstands.2.2 text htext]⟩
    · rw [hlines, hfinish]
      exact List.drop_length

variable (json source sessionId limits) in
theorem exists_follow_start :
    ∃ exchanges : List (Exchange P C),
      follow json source sessionId limits (source.bytes.length + 1) 0 none = some exchanges ∧
        (Budgeted exchanges → RunHolds json source false 0 exchanges) := by
  have hpages : source.bytes.length <
      ((limits 0).request sessionId none).offset + (source.bytes.length + 1) := by
    show source.bytes.length < 0 + (source.bytes.length + 1)
    omega
  exact exists_follow json (requested_start 0) hpages

variable (json source sessionId limits) in
/-- For every file and all limits of the pages: following the cursors from the start ends, and
unless a page fails for its budget, the pages are complete exactly when none of them starts
inside a line which it could show. -/
theorem transcript_pages_complete_iff :
    ∃ exchanges : List (Exchange P C),
      follow json source sessionId limits (source.bytes.length + 1) 0 none = some exchanges ∧
        (Budgeted exchanges →
          (PagesComplete json source exchanges ↔ ResumesOutside json source exchanges)) := by
  obtain ⟨exchanges, hfollow, hrun⟩ := exists_follow_start json source sessionId limits
  exact ⟨exchanges, hfollow, fun hbudgeted ↦ (hrun hbudgeted).pagesComplete_iff⟩

/-! ### A line which straddles the bound of a scan -/

/-- A reader which knows objects, with lengths of plausible size. -/
def sampleJson : Json Unit Unit Unit where
  fromStr text := if text.toList.head? = some '\x7b' then some () else none
  pointer _ path := if path = "/type" then some "user" else none
  present _ := ()
  project _ := ()
  pageBytes page := 600 + page.records.length
  recordBytes record :=
    300 + record.id.utf8ByteSize + (record.rawJson.map String.utf8ByteSize).getD 0

/-- The second line of the file. -/
def shortLine : List UInt8 :=
  utf8 "\x7b\"type\":\"user\"\x7d\n"

/-- A line which ends before the bound of a scan, and a short line across the bound. -/
def straddling : Source where
  sourceId := "artifact"
  identity := "1:2"
  generation := "1:2:1048582:0"
  bytes := (List.replicate 1048565 120 ++ [lineFeed]) ++ shortLine

/-- The defaults, over buffers of 8 KiB. -/
def defaultLimits (_ : Nat) : PageLimits where
  maxRecords := none
  maxBytes := none
  available offset := 8191 - offset % 8192
  verified := false

theorem straddling_drop : straddling.bytes.drop 1048566 = shortLine := by
  have hlength : (List.replicate 1048565 (120 : UInt8) ++ [lineFeed]).length = 1048566 := by
    rw [List.length_append, List.length_replicate, List.length_singleton]
  rw [straddling, ← hlength, List.drop_left]

theorem straddling_between :
    between straddling.bytes 0 1048566 = List.replicate 1048565 120 ++ [lineFeed] := by
  have hlength : (List.replicate 1048565 (120 : UInt8) ++ [lineFeed]).length = 1048566 := by
    rw [List.length_append, List.length_replicate, List.length_singleton]
  rw [between, straddling, List.drop_zero, Nat.sub_zero, ← hlength, List.take_left]

theorem isLine_long : IsLine lineFeed (List.replicate 1048565 (120 : UInt8) ++ [lineFeed]) := by
  refine ⟨_, rfl, fun hmem ↦ ?_⟩
  exact absurd (List.eq_of_mem_replicate hmem) (by decide)

/-- The default budget leaves room for every record of a file without its body. -/
theorem roomy_sampleJson {source : Source} (hopened : source.Opened) (sessionId : String) :
    Roomy sampleJson source sessionId defaultLimits := by
  refine fun index cursor ↦ ⟨?_, ?_⟩
  · rintro ⟨pos, line, oversized, hline, hpart, hroom⟩
    have hid := hopened.id_le sampleJson hline hpart oversized
    apply hroom
    show 600 + 0 + (300 + (transcriptRecord sampleJson source pos (pos + line.length) line
      oversized).id.utf8ByteSize + 0) ≤ 131072
    omega
  · show 600 + 0 < 131072
    decide

theorem isLine_shortLine : IsLine lineFeed shortLine := by
  refine ⟨shortLine.take 15, by decide, by decide⟩

theorem length_straddling : straddling.bytes.length = 1048582 := by
  show ((List.replicate 1048565 (120 : UInt8) ++ [lineFeed]) ++ shortLine).length = 1048582
  rw [List.length_append, List.length_append, List.length_replicate]
  rfl

theorem opened_straddling : straddling.Opened :=
  ⟨by rw [length_straddling]; decide, by decide⟩

/-- The only line feeds are the last bytes of the two lines. -/
theorem lineFeed_straddling {i : Nat} (h : straddling.bytes[i]? = some lineFeed) :
    i = 1048565 ∨ i = 1048581 := by
  have hshort : ∀ j < 16, shortLine[j]? = some lineFeed → j = 15 := by decide
  have hlt : i < 1048582 := by
    rw [← length_straddling]
    exact (List.getElem?_eq_some_iff.mp h).1
  by_cases hlong : i < 1048565
  · have hget : straddling.bytes[i]? = some 120 := by
      show ((List.replicate 1048565 (120 : UInt8) ++ [lineFeed]) ++ shortLine)[i]? = some 120
      rw [List.append_assoc, List.getElem?_append_left (by rwa [List.length_replicate]),
        List.getElem?_replicate, if_pos hlong]
    rw [hget] at h
    exact absurd h (by decide)
  · by_cases hfeed : i = 1048565
    · exact .inl hfeed
    · have hsum : 1048566 + (i - 1048566) = i := by omega
      have hdrop : (straddling.bytes.drop 1048566)[i - 1048566]? = some lineFeed := by
        rw [List.getElem?_drop, hsum]
        exact h
      rw [straddling_drop] at hdrop
      have hindex := hshort (i - 1048566) (by omega) hdrop
      omega

/-- No line feed lies between the end of the first line and the bound of the scan. -/
theorem notMem_between_straddling {stop : Nat} (hstop : stop ≤ 1048576) :
    lineFeed ∉ between straddling.bytes 1048566 stop := by
  have hprefix : lineFeed ∉ shortLine.take 10 := by decide
  rw [between, straddling_drop]
  intro hmem
  have hsub : shortLine.take (stop - 1048566) <+: shortLine.take 10 :=
    List.take_prefix_take_left (by omega)
  exact hprefix (hsub.subset hmem)

/-- Records which end after the first line are one record. -/
theorem length_records_straddling {R : Nat → List UInt8 → TranscriptRecord Unit Unit → Prop}
    {records : List (TranscriptRecord Unit Unit)}
    (h : Tiles lineFeed straddling.bytes R 0 records 1048566)
    (hstands : ∀ pos line record, R pos line record → StandsFor pos line record) :
    records.length = 1 := by
  obtain ⟨hflat, hlines⟩ := h.exists_lines
    fun _ _ _ _ hpart hrecord ↦ slice_of_standsFor (hstands _ _ _ hrecord) hpart
  have htail : lineFeed ∉ ([] : List UInt8) := List.not_mem_nil
  have hsplit := splitLines_flatten_append hlines htail
  rw [← hflat, straddling_between] at hsplit
  have hlong : splitLines lineFeed ((List.replicate 1048565 (120 : UInt8) ++ [lineFeed]) ++ []) =
      ([List.replicate 1048565 (120 : UInt8) ++ [lineFeed]], []) :=
    splitLines_isLine_append isLine_long
  rw [hsplit] at hlong
  calc records.length = (records.map straddling.slice).length := (List.length_map _).symm
    _ = 1 := congrArg (fun parts ↦ parts.1.length) hlong

/-- The first page ends ten bytes into the second line. -/
theorem straddling_first_page :
    ∃ next : TranscriptCursor,
      ((defaultLimits 0).exchange sampleJson straddling "codex:thread:t" none).page.nextCursor =
          some next ∧
        next.recordStart = 1048566 ∧ next.offset = 1048576 := by
  have hrequested : Requested straddling ((defaultLimits 0).request "codex:thread:t" none) :=
    requested_start 0
  obtain ⟨-, finish, hcontents⟩ :=
    (roomy_sampleJson opened_straddling "codex:thread:t").holds hrequested
  have hfinish : finish = 1048566 := by
    have hle : finish ≤ 0 + maxScanBytes := hcontents.finish_le
    have hmax : maxScanBytes = 1048576 := rfl
    rcases hrequested.position.boundary_of_tiles hcontents.tiles with hzero | hfeed
    · exfalso
      have hnil : ((defaultLimits 0).exchange sampleJson straddling "codex:thread:t"
          none).page.records = [] := by
        by_contra hne
        have hlt := hcontents.tiles.lt hne
        omega
      apply hcontents.empty hnil
      show lineFeed ∈ between straddling.bytes 0 (min (0 + maxScanBytes) straddling.bytes.length)
      have hend : min (0 + maxScanBytes) straddling.bytes.length = 1048576 := by
        rw [length_straddling]
        rfl
      rw [hend, ← between_append (Nat.zero_le 1048566) (by decide), straddling_between]
      exact List.mem_append_left _ (List.mem_append_right _ List.mem_cons_self)
    · rcases lineFeed_straddling hfeed with hindex | hindex <;> omega
  subst hfinish
  have hnext : ((defaultLimits 0).exchange sampleJson straddling "codex:thread:t"
      none).page.nextCursor ≠ none := by
    intro hnone
    apply hcontents.last hnone
    rw [straddling_drop]
    decide
  obtain ⟨next, hsome⟩ := Option.ne_none_iff_exists'.mp hnext
  have hcursor := hcontents.next next hsome
  refine ⟨next, hsome, hcursor.recordStart, ?_⟩
  have hlength := length_records_straddling hcontents.tiles
    fun _ _ _ hrecord ↦ hrecord ▸ standsFor_lineRecord
  rcases hcursor.stopped (by rw [hlength]; decide) with hbound | ⟨-, stop, hstop, -, hline⟩
  · exact hbound
  · exact absurd (List.mem_of_getLast? hline.getLast?) (notMem_between_straddling hstop)

/-- A line below 64 KiB which crosses the bound of a scan is never shown. -/
theorem straddling_line_not_shown :
    ∃ exchanges : List (Exchange Unit Unit),
      follow sampleJson straddling "codex:thread:t" defaultLimits
          (straddling.bytes.length + 1) 0 none = some exchanges ∧
        Budgeted exchanges ∧ ¬PagesComplete sampleJson straddling exchanges := by
  obtain ⟨exchanges, hfollow, hrun⟩ :=
    exists_follow_start sampleJson straddling "codex:thread:t" defaultLimits
  have hbudgeted := (roomy_sampleJson opened_straddling "codex:thread:t").budgeted
    (requested_start 0) hfollow
  refine ⟨exchanges, hfollow, hbudgeted, fun hpages ↦ ?_⟩
  have houtside := (hrun hbudgeted).pagesComplete_iff.mp hpages
  obtain ⟨next, hnext, hstart, hoffset⟩ := straddling_first_page
  rw [length_straddling, follow, hnext] at hfollow
  obtain ⟨rest, hrest, rfl⟩ := Option.map_eq_some_iff.mp hfollow
  rw [follow] at hrest
  have hmem : (defaultLimits 1).exchange sampleJson straddling "codex:thread:t" (some next) ∈
      rest := by
    simp only [Nat.zero_add] at hrest
    split at hrest
    · cases hrest
      exact List.mem_cons_self
    · obtain ⟨others, -, rfl⟩ := Option.map_eq_some_iff.mp hrest
      exact List.mem_cons_self
  refine houtside _ (List.mem_cons_of_mem _ hmem) next rfl (by omega) ?_
  have hline : readUntil lineFeed (straddling.bytes.drop next.recordStart) = shortLine := by
    rw [hstart, straddling_drop]
    decide
  rw [hline]
  refine ⟨isLine_shortLine, by decide, ?_, ?_⟩
  · rw [readJson, shortLine, fromUtf8_utf8]
    rfl
  · have hread : readJson sampleJson shortLine = some ("\x7b\"type\":\"user\"\x7d\n", ()) := by
      rw [readJson, shortLine, fromUtf8_utf8]
      rfl
    have hraw : (fullRecord sampleJson straddling next.recordStart shortLine).rawJson =
        some "\x7b\"type\":\"user\"\x7d\n" := by
      rw [fullRecord, rawJson_transcriptRecord, hread]
      rfl
    have hdrop : straddling.bytes.drop next.recordStart = shortLine := by
      rw [hstart, straddling_drop]
    have hpart : shortLine <+: straddling.bytes.drop next.recordStart :=
      hdrop.symm ▸ List.prefix_refl _
    have hid := opened_straddling.id_le sampleJson isLine_shortLine hpart false
    show 600 + 0 + (300 + (fullRecord sampleJson straddling next.recordStart
      shortLine).id.utf8ByteSize + ((fullRecord sampleJson straddling next.recordStart
        shortLine).rawJson.map String.utf8ByteSize).getD 0) ≤ 131072
    have hsize : (("\x7b\"type\":\"user\"\x7d\n" : String)).utf8ByteSize = 16 := by
      decide
    rw [hraw, Option.map_some, Option.getD_some, hsize, fullRecord]
    omega

end AgentOdometer.Transcript
