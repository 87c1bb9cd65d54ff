import AgentOdometer.TranscriptExport.Links
import AgentOdometer.TranscriptExport.Noninterference

/-!
# What a shared excerpt exposes

The document of `transcriptExport.ts:115–122` is its template and escaped text. What it says of a
transcript is what the options select of it.
-/

namespace AgentOdometer.TranscriptExport

open Transcript (TranscriptRequest)
open Replacing

variable {platform : Platform} {options : TranscriptExportOptions} {entries : List Entry}

/-- A piece without the text in it. -/
def Piece.erase : Piece → Piece
  | .text _ => .text []
  | piece => piece

/-! ### The markup -/

theorem anchorsOf_map_shape (isKind : JsString → Bool) (entries : List Entry) :
    anchorsOf isKind (entries.map Entry.shape) = anchorsOf isKind entries := by
  have hblocks : (entries.map Entry.shape).flatMap (·.blocks) =
      (entries.flatMap (·.blocks)).map EntryBlock.shape := by
    rw [List.flatMap_map, List.map_flatMap]
    rfl
  rw [anchorsOf, anchorsOf, hblocks, List.foldl_map]
  rfl

theorem peerOf_map_shape (entries : List Entry) (block : EntryBlock) :
    peerOf (entries.map Entry.shape) block.shape = peerOf entries block := by
  unfold peerOf results calls
  rw [anchorsOf_map_shape, anchorsOf_map_shape]
  rfl

theorem erase_sectionPieces (entries : List Entry) (block : EntryBlock) :
    (sectionPieces (entries.map Entry.shape) block.shape).map Piece.erase =
      (sectionPieces entries block).map Piece.erase := by
  unfold sectionPieces
  rw [peerOf_map_shape]
  cases peerOf entries block <;> rfl

theorem erase_articlePieces (entries : List Entry) (entry : Entry) :
    (articlePieces (entries.map Entry.shape) entry.shape).map Piece.erase =
      (articlePieces entries entry).map Piece.erase := by
  have hsections : (entry.shape.blocks.flatMap (sectionPieces (entries.map Entry.shape))).map
      Piece.erase = (entry.blocks.flatMap (sectionPieces entries)).map Piece.erase := by
    rw [Entry.shape, List.flatMap_map, List.map_flatMap, List.map_flatMap]
    exact List.flatMap_congr fun block _ ↦ erase_sectionPieces entries block
  unfold articlePieces
  rw [List.map_append, List.map_append, List.map_append, hsections, List.map_append,
    List.map_append, List.map_append]
  rfl

theorem erase_document {s s' : Excerpt} (h : s.Alike s') :
    (document options s').map Piece.erase = (document options s).map Piece.erase := by
  have hindex : ∀ entries : List Entry, (entries.flatMap indexPieces).map Piece.erase =
      (entries.map Entry.shape).flatMap fun entry ↦ (indexPieces entry).map Piece.erase := by
    intro entries
    rw [List.map_flatMap, List.flatMap_map]
    rfl
  have harticles : ∀ entries : List Entry,
      (entries.flatMap (articlePieces entries)).map Piece.erase =
        (entries.map Entry.shape).flatMap fun entry ↦
          (articlePieces (entries.map Entry.shape) entry).map Piece.erase := by
    intro entries
    rw [List.map_flatMap, List.flatMap_map]
    exact List.flatMap_congr fun entry _ ↦ (erase_articlePieces entries entry).symm
  have hnone : s'.entries = [] ↔ s.entries = [] := by
    rw [← List.map_eq_nil_iff, h.entries, List.map_eq_nil_iff]
  unfold document
  simp only [List.map_append, List.map_cons, List.map_nil, Piece.erase, hindex, h.entries, hnone]
  split
  · rfl
  · rw [harticles, harticles, h.entries]

/-! ### The text -/

/-- A piece whose text, if it is text, has no markup in it. -/
def Piece.IsPlain : Piece → Prop
  | .text content => Plain content
  | _ => True

/-- An entry whose texts have no markup in them. -/
structure Entry.IsPlain (entry : Entry) : Prop where
  anchor : Plain entry.anchor
  role : Plain entry.role
  time : Plain entry.time
  blocks : ∀ block ∈ entry.blocks, Plain block.kind ∧ Plain block.name ∧ Plain block.html

theorem plain_nil : Plain [] :=
  fun _ h ↦ absurd h List.not_mem_nil

theorem plain_toString (n : Nat) : Plain (js (toString n)) := by
  intro c hc
  obtain ⟨hlow, hhigh⟩ := unit_isDigit hc
  rw [UInt16.le_iff_toNat_le] at hlow hhigh
  refine ⟨?_, ?_, ?_, ?_⟩
  all_goals
    rintro rfl
    revert hlow hhigh
    decide

theorem plain_dotted {text : JsString} (h : Plain text) : Plain (dotted text) := by
  unfold dotted
  split
  · exact plain_nil
  · exact Plain.append (by decide) h

theorem isPlain_indexPieces {entry : Entry} (h : entry.IsPlain) :
    ∀ piece ∈ indexPieces entry, piece.IsPlain := by
  have htext : Plain (entry.role ++ js " · " ++ entry.anchor ++ dotted entry.time) :=
    ((h.role.append (by decide)).append h.anchor).append (plain_dotted h.time)
  simp only [indexPieces, List.forall_mem_cons, Piece.IsPlain, true_and]
  exact ⟨htext, fun _ hmem ↦ absurd hmem List.not_mem_nil⟩

theorem isPlain_sectionPieces {entry : Entry} (h : entry.IsPlain) {block : EntryBlock}
    (hmem : block ∈ entry.blocks) : ∀ piece ∈ sectionPieces entries block, piece.IsPlain := by
  obtain ⟨hkind, hname, hhtml⟩ := h.blocks block hmem
  have hspaced : Plain (block.kind.map fun c ↦ if c = 95 then 32 else c) := by
    intro c hc
    obtain ⟨d, hd, rfl⟩ := List.mem_map.mp hc
    split
    · decide
    · exact hkind d hd
  have htitle : Plain ((block.kind.map fun c ↦ if c = 95 then 32 else c) ++ dotted block.name) :=
    hspaced.append (plain_dotted hname)
  have hpeer : ∀ piece ∈ peerPieces block (peerOf entries block), piece.IsPlain := by
    cases peerOf entries block with
    | none => exact fun _ hmem ↦ absurd hmem List.not_mem_nil
    | some peer =>
      have hword : Plain (if block.kind = js "tool_call" then js "result" else js "call") := by
        split <;> decide
      simp only [peerPieces, List.forall_mem_cons, Piece.IsPlain, true_and]
      exact ⟨Plain.append (by decide) hword, fun _ hmem ↦ absurd hmem List.not_mem_nil⟩
  unfold sectionPieces
  rw [List.forall_mem_append, List.forall_mem_append]
  refine ⟨⟨?_, hpeer⟩, ?_⟩
  · simp only [List.forall_mem_cons, Piece.IsPlain, true_and]
    exact ⟨htitle, fun _ hmem ↦ absurd hmem List.not_mem_nil⟩
  · simp only [List.forall_mem_cons, Piece.IsPlain, true_and]
    exact ⟨hhtml, fun _ hmem ↦ absurd hmem List.not_mem_nil⟩

theorem isPlain_articlePieces {entry : Entry} (h : entry.IsPlain) :
    ∀ piece ∈ articlePieces entries entry, piece.IsPlain := by
  have htitle : Plain (entry.role ++ js " · " ++ entry.anchor) :=
    (h.role.append (by decide)).append h.anchor
  unfold articlePieces
  rw [List.forall_mem_append, List.forall_mem_append, List.forall_mem_append]
  refine ⟨⟨⟨?_, ?_⟩, ?_⟩, ?_⟩
  · simp only [List.forall_mem_cons, Piece.IsPlain, true_and]
    exact ⟨htitle, fun _ hmem ↦ absurd hmem List.not_mem_nil⟩
  · split
    · exact fun _ hmem ↦ absurd hmem List.not_mem_nil
    · simp only [List.forall_mem_cons, Piece.IsPlain, true_and]
      exact ⟨h.time, fun _ hmem ↦ absurd hmem List.not_mem_nil⟩
  · intro piece hmem
    obtain ⟨block, hblock, hpiece⟩ := List.mem_flatMap.mp hmem
    exact isPlain_sectionPieces h hblock piece hpiece
  · simp only [List.forall_mem_cons, Piece.IsPlain, true_and]
    exact ⟨by decide, fun _ hmem ↦ absurd hmem List.not_mem_nil⟩

theorem plain_warning : Plain (js ". " ++ js warning) := by
  decide +kernel

/-- No text of the document has markup in it. -/
theorem isPlain_document {s : Excerpt} (h : ∀ entry ∈ s.entries, entry.IsPlain) :
    ∀ piece ∈ document options s, piece.IsPlain := by
  have hcoverage : Plain (js (coverage s.complete)) := by
    cases s.complete <;> decide
  have hcounts : Plain (js (toString s.records) ++ js " source records read. " ++
      js (toString s.omitted) ++ js " records or blocks omitted. " ++ js (toString s.redactions) ++
      js " redactions. " ++ js (if s.limited then "Preview safety limit reached." else "")) := by
    have hlimited : Plain (js (if s.limited then "Preview safety limit reached." else "")) := by
      cases s.limited <;> decide
    exact ((((((plain_toString _).append (by decide)).append (plain_toString _)).append
      (by decide)).append (plain_toString _)).append (by decide)).append hlimited
  have hincluded : Plain (js "Included: conversation text" ++
      js (if options.toolCalls then ", tool calls" else "") ++
      js (if options.toolResults then ", tool results" else "") ++
      js (if options.reasoning then ", reasoning" else "") ++
      js ". Tool payloads may contain sensitive information.") := by
    have hcalls : Plain (js (if options.toolCalls then ", tool calls" else "")) := by
      cases options.toolCalls <;> decide
    have hresults : Plain (js (if options.toolResults then ", tool results" else "")) := by
      cases options.toolResults <;> decide
    have hreasoning : Plain (js (if options.reasoning then ", reasoning" else "")) := by
      cases options.reasoning <;> decide
    have hfront : Plain (js "Included: conversation text") := by decide
    exact (((hfront.append hcalls).append hresults).append hreasoning).append (by decide)
  unfold document
  rw [List.forall_mem_append, List.forall_mem_append, List.forall_mem_append,
    List.forall_mem_append]
  refine ⟨⟨⟨⟨?_, ?_⟩, ?_⟩, ?_⟩, ?_⟩
  · simp only [List.forall_mem_cons, Piece.IsPlain, true_and]
    exact ⟨hcoverage, plain_warning, hcounts, hincluded, fun _ hmem ↦ absurd hmem List.not_mem_nil⟩
  · intro piece hmem
    obtain ⟨entry, hentry, hpiece⟩ := List.mem_flatMap.mp hmem
    exact isPlain_indexPieces (h entry hentry) piece hpiece
  · simp only [List.forall_mem_cons, Piece.IsPlain, true_and]
    exact fun _ hmem ↦ absurd hmem List.not_mem_nil
  · split
    · simp only [List.forall_mem_cons, Piece.IsPlain, true_and]
      exact ⟨by decide, fun _ hmem ↦ absurd hmem List.not_mem_nil⟩
    · intro piece hmem
      obtain ⟨entry, hentry, hpiece⟩ := List.mem_flatMap.mp hmem
      exact isPlain_articlePieces (h entry hentry) piece hpiece
  · simp only [List.forall_mem_cons, Piece.IsPlain, true_and]
    exact fun _ hmem ↦ absurd hmem List.not_mem_nil

/-! ### What was selected -/

theorem exists_of_mem_selectedBlocks {role anchor : JsString} {blockIndex : Nat}
    {rest : List TranscriptBlock} {block : EntryBlock}
    (h : block ∈ selectedBlocks platform options role anchor blockIndex rest) :
    ∃ index, ∃ source ∈ rest, isAllowed options role source.kind = true ∧
      block = entryBlock platform options anchor index source := by
  induction rest generalizing blockIndex with
  | nil => cases h
  | cons source rest ih =>
    rw [selectedBlocks] at h
    split at h
    · next hallowed =>
      rcases List.mem_cons.mp h with rfl | h
      · exact ⟨blockIndex, source, List.mem_cons_self, hallowed, rfl⟩
      · obtain ⟨index, other, hmem, hother⟩ := ih h
        exact ⟨index, other, List.mem_cons_of_mem _ hmem, hother⟩
    · obtain ⟨index, other, hmem, hother⟩ := ih h
      exact ⟨index, other, List.mem_cons_of_mem _ hmem, hother⟩

theorem exists_of_mem_entriesFrom {number : Nat} {records : List TranscriptRecord} {entry : Entry}
    (h : entry ∈ entriesFrom platform options number records) :
    ∃ n, ∃ record ∈ records, entry = entryOf platform options n record := by
  induction records generalizing number with
  | nil => cases h
  | cons record records ih =>
    rw [entriesFrom] at h
    split at h
    · obtain ⟨n, other, hmem, hother⟩ := ih h
      exact ⟨n, other, List.mem_cons_of_mem _ hmem, hother⟩
    · rcases List.mem_cons.mp h with rfl | h
      · exact ⟨number, record, List.mem_cons_self, rfl⟩
      · obtain ⟨n, other, hmem, hother⟩ := ih h
        exact ⟨n, other, List.mem_cons_of_mem _ hmem, hother⟩

theorem plain_kind {role kind : JsString} (h : isAllowed options role kind = true) :
    Plain kind := by
  simp only [isAllowed, isToolResult, Bool.or_eq_true, Bool.and_eq_true, decide_eq_true_eq,
    List.mem_cons, List.not_mem_nil, or_false] at h
  rcases h with ((⟨rfl, -⟩ | ⟨rfl, -⟩) | ⟨rfl | rfl, -⟩) | ⟨rfl, -⟩ <;> decide

theorem plain_roleOf (view : Option TranscriptPresentation) : Plain (roleOf view) := by
  unfold roleOf
  split
  · split
    · next hmem =>
      simp only [List.mem_cons, List.not_mem_nil, or_false] at hmem
      rcases hmem with rfl | rfl | rfl | rfl <;> decide
    · decide
  · decide

theorem plain_timeOf (view : Option TranscriptPresentation) : Plain (timeOf platform view) := by
  unfold timeOf
  split
  · next timestamp _ =>
    split
    · exact plain_nil
    · cases htime : platform.toISOString timestamp with
      | none => exact plain_nil
      | some text => exact platform.plain timestamp text htime
  · exact plain_nil

theorem isPlain_entryOf (number : Nat) (record : TranscriptRecord) :
    (entryOf platform options number record).IsPlain := by
  refine ⟨Plain.append (by decide) (plain_toString _), plain_roleOf _, plain_timeOf _, ?_⟩
  intro block hblock
  obtain ⟨index, source, -, hallowed, rfl⟩ := exists_of_mem_selectedBlocks hblock
  exact ⟨plain_kind hallowed, plain_escapeTranscriptHtml _, plain_escapeTranscriptHtml _⟩

variable {sessionId : String} {cancelled : Nat → Bool}
  {read read' : Nat → TranscriptRequest → Except String TranscriptPage}

/-- A reading which was not refused has the entries of records which it read. -/
theorem entries_readExcerpt {ended : Except Excerpt Excerpt}
    (h : readExcerpt platform options sessionId read cancelled = .ok ended) :
    ∃ records, (∀ record ∈ records, WasRead sessionId read record) ∧
      (settle ended).entries = entriesFrom platform options 1 records := by
  unfold readExcerpt at h
  split at h
  · cases h
  · exact entries_exportPages h

/-- The text which a collected block has of a value: all the redaction rules in order, escaped, in
which what is left of a review phrase has a unit that redaction inserted. -/
structure Exports (platform : Platform) (options : TranscriptExportOptions)
    (value exported : JsString) : Prop where
  escaped : exported = escapeTranscriptHtml
    (redactTranscriptText platform.unmatched value options.redactPhrases).text
  marked : (markedText platform.unmatched value options.redactPhrases).map Prod.fst =
    (redactTranscriptText platform.unmatched value options.redactPhrases).text
  covered : ∀ phrase ∈ options.redactPhrases, phrase ≠ [] → Covered Prod.fst Prod.snd phrase
    (markedText platform.unmatched value options.redactPhrases)

theorem exports_clean (value : JsString) :
    Exports platform options value (clean platform options value).text :=
  ⟨rfl, map_fst_markedText, fun _ hmem hphrase ↦ covered_markedText hmem hphrase⟩

/-! ### The preview -/

/-- What the blocks which are not selected hold is nowhere in the preview, nor in its counts. -/
theorem preview_hides_unselected (h : ReadersAgree (SameSelected options) read read') :
    previewTranscriptExport platform options sessionId read' cancelled =
      previewTranscriptExport platform options sessionId read cancelled := by
  unfold previewTranscriptExport readExcerpt
  rw [exportPages_congr h]

/-- No markup depends on the texts and names of blocks: two readings which differ only in these,
and which the size limit does not cut, give documents which differ only in plain text. -/
theorem markup_ignores_text {s s' : Excerpt} (h : ReadersAgree SameShape read read')
    (hs : readExcerpt platform options sessionId read cancelled = .ok (.ok s))
    (hs' : readExcerpt platform options sessionId read' cancelled = .ok (.ok s')) :
    (document options (settle (.ok s'))).map Piece.erase =
        (document options (settle (.ok s))).map Piece.erase ∧
      ∀ piece ∈ document options (settle (.ok s)), piece.IsPlain := by
  have hentries := entries_readExcerpt hs
  unfold readExcerpt at hs hs'
  split at hs
  · cases hs
  next hphrases =>
  rw [if_neg hphrases] at hs'
  have halike := exportPages_alike h maxPages (Excerpt.Alike.refl _) hs hs'
  constructor
  · apply erase_document
    refine ⟨halike.entries, halike.cursors, halike.cursor, halike.records, halike.omitted, ?_,
      halike.limited, halike.gap⟩
    show (s'.complete && !s'.limited) = (s.complete && !s.limited)
    rw [halike.complete, halike.limited]
  · apply isPlain_document
    obtain ⟨records, -, hrecords⟩ := hentries
    intro entry hmem
    rw [hrecords] at hmem
    obtain ⟨n, record, -, rfl⟩ := exists_of_mem_entriesFrom hmem
    exact isPlain_entryOf n record

/-- The ids of the elements are different from each other, and every link goes to one of them. -/
theorem document_links {ended : Except Excerpt Excerpt}
    (h : readExcerpt platform options sessionId read cancelled = .ok ended) :
    (ids (document options (settle ended))).Nodup ∧
      ∀ target ∈ targets (document options (settle ended)),
        target ∈ ids (document options (settle ended)) := by
  obtain ⟨records, -, hentries⟩ := entries_readExcerpt h
  exact ⟨nodup_ids hentries, fun _ hmem ↦ mem_ids_of_mem_targets hmem⟩

/-- The blocks of the document are selected ones of the records which the reader gave, and what is
left of a review phrase in their texts and names has a unit of an inserted label. -/
theorem exported_blocks_redacted {ended : Except Excerpt Excerpt}
    (h : readExcerpt platform options sessionId read cancelled = .ok ended) :
    ∀ entry ∈ (settle ended).entries, ∀ block ∈ entry.blocks,
      ∃ (record : TranscriptRecord) (view : TranscriptPresentation) (source : TranscriptBlock),
        WasRead sessionId read record ∧ record.presentation = some view ∧ source ∈ view.blocks ∧
          entry.role = roleOf (some view) ∧ isAllowed options entry.role source.kind = true ∧
          block.kind = source.kind ∧ block.call = source.callId ∧
          Exports platform options source.text block.html ∧
          Exports platform options (cutName source) block.name := by
  obtain ⟨records, hread, hentries⟩ := entries_readExcerpt h
  intro entry hentry block hblock
  rw [hentries] at hentry
  obtain ⟨n, record, hmem, rfl⟩ := exists_of_mem_entriesFrom hentry
  obtain ⟨index, source, hsource, hallowed, rfl⟩ := exists_of_mem_selectedBlocks hblock
  cases hview : record.presentation with
  | none =>
    rw [hview] at hsource
    exact absurd hsource List.not_mem_nil
  | some view =>
    rw [hview] at hsource
    exact ⟨record, view, source, hread record hmem, hview, hsource, congrArg roleOf hview,
      hallowed, rfl, rfl, exports_clean _, exports_clean _⟩

/-- A preview is called complete only after the last page of the source, when every page and record
on the way was without an issue and no limit was met; it then has every selected block of them. -/
theorem complete_preview {ended : Except Excerpt Excerpt}
    (h : readExcerpt platform options sessionId read cancelled = .ok ended)
    (hcomplete : (preview options (settle ended)).complete = true) :
    ∃ pages, ReadWhole platform options sessionId read 0 .initial (settle ended) pages := by
  unfold readExcerpt at h
  split at h
  · cases h
  · exact readWhole_of_complete (Nat.le_refl _) h rfl hcomplete

/-! ### Two conversations -/

/-- Nothing matches a pattern, as in short texts without a secret, and there are no dates. -/
def barePlatform : Platform :=
  ⟨fun _ text ↦ [text], fun _ ↦ none, fun _ _ h ↦ by cases h⟩

/-- Conversation text only, with a phrase to redact. -/
def phraseOptions : TranscriptExportOptions :=
  ⟨false, false, false, [js "key"]⟩

/-- A reader of one page: a text of the assistant and a call of a tool. -/
def oneAnswer (text command : String) : Nat → TranscriptRequest → Except String TranscriptPage :=
  fun _ _ ↦ .ok
    { availability := js "available"
      issues := []
      records := [⟨some ⟨some (js "assistant"), none,
        [⟨js "text", js text, none, none⟩, ⟨js "tool_call", js command, some (js "1"), none⟩]⟩,
        none⟩]
      nextCursor := none
      sourceComplete := true }

/-- The variables after its page, with one block of text. -/
def answered (html : String) (redactions bytes : Nat) : Excerpt :=
  { entries := [⟨js "record-1", js "assistant", [],
      [⟨js "text", js html, none, [], js "record-1-block-0"⟩]⟩]
    cursors := []
    cursor := none
    records := 1
    omitted := 1
    redactions
    bytes
    complete := true
    limited := false
    gap := false }

theorem readExcerpt_answer :
    readExcerpt barePlatform phraseOptions "s" (oneAnswer "a" "ls") (fun _ ↦ false) =
        .ok (.ok (answered "a" 0 401)) ∧
      readExcerpt barePlatform phraseOptions "s" (oneAnswer "a key" "ls") (fun _ ↦ false) =
        .ok (.ok (answered "a [review phrase redacted]" 1 426)) :=
  ⟨rfl, rfl⟩

theorem preview_hides_unselected_answer :
    previewTranscriptExport barePlatform phraseOptions "s" (oneAnswer "a" "ls") (fun _ ↦ false) =
      previewTranscriptExport barePlatform phraseOptions "s" (oneAnswer "a" "cat")
        (fun _ ↦ false) := by
  refine preview_hides_unselected fun index request ↦ ?_
  refine ⟨rfl, rfl, .cons ⟨rfl, .some ⟨rfl, rfl, ?_⟩⟩ .nil, rfl, rfl⟩
  refine .cons (fun _ ↦ rfl) (.cons (fun hallowed ↦ ?_) .nil)
  exact absurd hallowed (by decide)

theorem markup_ignores_text_answer :
    (document phraseOptions (settle (.ok (answered "a [review phrase redacted]" 1 426)))).map
        Piece.erase =
      (document phraseOptions (settle (.ok (answered "a" 0 401)))).map Piece.erase := by
  have hagree : ReadersAgree SameShape (oneAnswer "a" "ls") (oneAnswer "a key" "ls") :=
    fun _ _ ↦ ⟨rfl, rfl, .cons ⟨rfl, .some ⟨rfl, rfl,
      .cons ⟨rfl, rfl⟩ (.cons ⟨rfl, rfl⟩ .nil)⟩⟩ .nil, rfl, rfl⟩
  exact (markup_ignores_text hagree readExcerpt_answer.1 readExcerpt_answer.2).1

/-- Tool calls and their results, and no phrase. -/
def toolOptions : TranscriptExportOptions :=
  ⟨true, true, false, []⟩

/-- A reader of one page: a call of a tool, and its result. -/
def oneCall : Nat → TranscriptRequest → Except String TranscriptPage :=
  fun _ _ ↦ .ok
    { availability := js "available"
      issues := []
      records := [⟨some ⟨some (js "assistant"), none,
        [⟨js "tool_call", js "ls", some (js "1"), none⟩,
          ⟨js "tool_result", js "src", some (js "1"), none⟩]⟩, none⟩]
      nextCursor := none
      sourceComplete := true }

/-- The variables after its page, with the two blocks. -/
def called : Excerpt :=
  { entries := [⟨js "record-1", js "assistant", [],
      [⟨js "tool_call", js "ls", some (js "1"), [], js "record-1-block-0"⟩,
        ⟨js "tool_result", js "src", some (js "1"), [], js "record-1-block-1"⟩]⟩]
    cursors := []
    cursor := none
    records := 1
    omitted := 0
    redactions := 0
    bytes := 805
    complete := true
    limited := false
    gap := false }

theorem readExcerpt_call :
    readExcerpt barePlatform toolOptions "s" oneCall (fun _ ↦ false) = .ok (.ok called) :=
  rfl

/-- The call links to its result. -/
theorem document_links_call :
    (ids (document toolOptions (settle (.ok called)))).Nodup ∧
      js "record-1-block-1" ∈ ids (document toolOptions (settle (.ok called))) := by
  have hlinks := document_links readExcerpt_call
  exact ⟨hlinks.1, hlinks.2 _ (by decide +kernel)⟩

theorem exported_blocks_redacted_answer :
    ∃ (record : TranscriptRecord) (view : TranscriptPresentation) (source : TranscriptBlock),
      WasRead "s" (oneAnswer "a key" "ls") record ∧ record.presentation = some view ∧
        source ∈ view.blocks ∧
          Exports barePlatform phraseOptions source.text (js "a [review phrase redacted]") := by
  obtain ⟨record, view, source, hread, hview, hsource, -, -, -, -, hexports, -⟩ :=
    exported_blocks_redacted readExcerpt_answer.2 _ List.mem_cons_self _ List.mem_cons_self
  exact ⟨record, view, source, hread, hview, hsource, hexports⟩

theorem complete_preview_answer :
    ∃ pages, ReadWhole barePlatform phraseOptions "s" (oneAnswer "a" "ls") 0 .initial
      (settle (.ok (answered "a" 0 401))) pages :=
  complete_preview readExcerpt_answer.1 rfl

end AgentOdometer.TranscriptExport
