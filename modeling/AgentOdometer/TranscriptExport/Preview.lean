import AgentOdometer.Transcript.Page
import AgentOdometer.TranscriptExport.Redact

/-!
# The preview of a transcript excerpt

`previewTranscriptExport` of `transcriptExport.ts:52–124`. The pages are read one after another, and
what the reader selected of their blocks is collected, redacted and escaped. An outer break of the
source is an error here which carries the variables; a thrown error ends the whole preview.
-/

namespace AgentOdometer.TranscriptExport

open Transcript (TranscriptCursor TranscriptRequest)

/-- `TranscriptBlock`, `types.ts:1510–1516`. -/
structure TranscriptBlock where
  kind : JsString
  text : JsString
  callId : Option JsString
  name : Option JsString
deriving DecidableEq

/-- `TranscriptPresentation`, `types.ts:1517–1521`. -/
structure TranscriptPresentation where
  role : Option JsString
  timestamp : Option JsString
  blocks : List TranscriptBlock
deriving DecidableEq

/-- `TranscriptRecord`, `types.ts:1522–1540`. -/
structure TranscriptRecord where
  presentation : Option TranscriptPresentation
  issue : Option JsString
deriving DecidableEq

/-- `TranscriptPage`, `types.ts:1541–1548`. -/
structure TranscriptPage where
  availability : JsString
  issues : List JsString
  records : List TranscriptRecord
  nextCursor : Option TranscriptCursor
  sourceComplete : Bool
deriving DecidableEq

/-- `transcriptExport.ts:3–8`. -/
structure TranscriptExportOptions where
  toolCalls : Bool
  toolResults : Bool
  reasoning : Bool
  redactPhrases : List JsString

/-- `transcriptExport.ts:9–16`. -/
structure TranscriptExportPreview where
  html : JsString
  complete : Bool
  records : Nat
  omitted : Nat
  redactions : Nat
  limited : Bool
deriving DecidableEq

/-- `MAX_PAGES`, `transcriptExport.ts:17`. -/
def maxPages : Nat :=
  40

/-- `MAX_HTML_BYTES`, `transcriptExport.ts:18`. -/
def maxHtmlBytes : Nat :=
  4 * 1024 * 1024

/-- What the preview uses of the platform: the stretches of a text between the matches of a regular
expression, and a date as ISO text when it is a valid one. -/
structure Platform where
  unmatched : RegExp → JsString → List JsString
  toISOString : JsString → Option JsString
  plain : ∀ timestamp text, toISOString timestamp = some text → Plain text

/-- A block of an entry, `transcriptExport.ts:49`. -/
structure EntryBlock where
  kind : JsString
  html : JsString
  call : Option JsString
  name : JsString
  anchor : JsString
deriving DecidableEq

/-- `Entry`, `transcriptExport.ts:49`. -/
structure Entry where
  anchor : JsString
  role : JsString
  time : JsString
  blocks : List EntryBlock
deriving DecidableEq

/-- The variables of the loop, `transcriptExport.ts:61–67`. -/
structure Excerpt where
  entries : List Entry
  cursors : List TranscriptCursor
  cursor : Option TranscriptCursor
  records : Nat
  omitted : Nat
  redactions : Nat
  bytes : Nat
  complete : Bool
  limited : Bool
  gap : Bool

/-- The variables before the loop. -/
def Excerpt.initial : Excerpt :=
  ⟨[], [], none, 0, 0, 0, 0, false, false, false⟩

/-- Follows `transcriptExport.ts:82`. -/
def roleOf (view : Option TranscriptPresentation) : JsString :=
  match view.bind (·.role) with
  | some role =>
    if role ∈ [js "user", js "assistant", js "system", js "tool"] then role else js "record"
  | none => js "record"

/-- Follows `transcriptExport.ts:83–84`. An empty timestamp is none. -/
def timeOf (platform : Platform) (view : Option TranscriptPresentation) : JsString :=
  match view.bind (·.timestamp) with
  | some timestamp =>
    if timestamp = [] then [] else (platform.toISOString timestamp).getD []
  | none => []

/-- `toolResult`, `transcriptExport.ts:87`. -/
def isToolResult (kind : JsString) : Bool :=
  kind ∈ [js "tool_result", js "tool_error"]

/-- Follows `transcriptExport.ts:86–88`. -/
def isAllowed (options : TranscriptExportOptions) (role kind : JsString) : Bool :=
  (kind = js "text" && role ∈ [js "user", js "assistant"]) ||
    (kind = js "tool_call" && options.toolCalls) ||
    (isToolResult kind && options.toolResults) ||
    (kind = js "reasoning" && options.reasoning)

/-- The anchor of a record, `transcriptExport.ts:84`. -/
def recordAnchor (records : Nat) : JsString :=
  js "record-" ++ js (toString records)

/-- The anchor of a block, `transcriptExport.ts:96`. -/
def blockAnchor (anchor : JsString) (blockIndex : Nat) : JsString :=
  anchor ++ js "-block-" ++ js (toString blockIndex)

section Loop

variable (platform : Platform) (options : TranscriptExportOptions)

/-- `clean`, `transcriptExport.ts:68–72`, with the count which it adds. -/
def clean (value : JsString) : Redacted :=
  let redacted := redactTranscriptText platform.unmatched value options.redactPhrases
  { redacted with text := escapeTranscriptHtml redacted.text }

/-- The name of a block, cut, `transcriptExport.ts:91`. -/
def cutName (block : TranscriptBlock) : JsString :=
  (block.name.getD []).take 100

/-- A block which is collected, `transcriptExport.ts:90–97`. -/
def entryBlock (anchor : JsString) (blockIndex : Nat) (block : TranscriptBlock) : EntryBlock :=
  { kind := block.kind
    html := (clean platform options block.text).text
    call := block.callId
    name := (clean platform options (cutName block)).text
    anchor := blockAnchor anchor blockIndex }

/-- Follows `transcriptExport.ts:86–97`. -/
def exportBlock (role anchor : JsString) (blockIndex : Nat) (block : TranscriptBlock)
    (s : Excerpt) (blocks : List EntryBlock) : Except Excerpt (Excerpt × List EntryBlock) :=
  if isAllowed options role block.kind then
    let html := clean platform options block.text
    let name := clean platform options (cutName block)
    let s := { s with redactions := s.redactions + html.count + name.count }
    let size := encodedLength (html.text ++ name.text) + 400
    if maxHtmlBytes < s.bytes + size then .error { s with limited := true }
    else
      .ok ({ s with bytes := s.bytes + size },
        blocks ++ [entryBlock platform options anchor blockIndex block])
  else .ok ({ s with omitted := s.omitted + 1 }, blocks)

/-- The blocks of a record from one on. -/
def exportBlocks (role anchor : JsString) : Nat → List TranscriptBlock → Excerpt →
    List EntryBlock → Except Excerpt (Excerpt × List EntryBlock)
  | _, [], s, blocks => .ok (s, blocks)
  | blockIndex, block :: rest, s, blocks =>
    match exportBlock platform options role anchor blockIndex block s blocks with
    | .error s => .error s
    | .ok (s, blocks) => exportBlocks role anchor (blockIndex + 1) rest s blocks

/-- Follows `transcriptExport.ts:79–100`. -/
def exportRecord (s : Excerpt) (record : TranscriptRecord) : Except Excerpt Excerpt :=
  let view := record.presentation
  let s := { s with records := s.records + 1, gap := s.gap || record.issue.isSome }
  let viewBlocks := (view.map (·.blocks)).getD []
  let anchor := recordAnchor s.records
  match exportBlocks platform options (roleOf view) anchor 0 viewBlocks s [] with
  | .error s => .error s
  | .ok (s, blocks) =>
    if blocks ≠ [] then
      .ok { s with entries := s.entries ++ [⟨anchor, roleOf view, timeOf platform view, blocks⟩] }
    else if viewBlocks = [] then .ok { s with omitted := s.omitted + 1 }
    else .ok s

/-- The records of a page. -/
def exportRecords : List TranscriptRecord → Excerpt → Except Excerpt Excerpt
  | [], s => .ok s
  | record :: records, s =>
    match exportRecord platform options s record with
    | .error s => .error s
    | .ok s => exportRecords records s

/-- Whether a page leaves a gap by itself, `transcriptExport.ts:77`. -/
def hasGap (page : TranscriptPage) : Bool :=
  page.issues ≠ [] || !(page.availability ∈ [js "available", js "partial"])

/-- A page which was read, `transcriptExport.ts:77–107`: the loop goes on with the next cursor, or
it is over. -/
def exportPage (page : TranscriptPage) (isLast : Bool) (s : Excerpt) :
    Except Excerpt (Excerpt × Bool) :=
  let s := { s with gap := s.gap || hasGap page }
  match exportRecords platform options page.records s with
  | .error s => .error s
  | .ok s =>
    match page.nextCursor with
    | none => .ok ({ s with complete := page.sourceComplete && !s.gap }, false)
    | some next =>
      if next ∈ s.cursors then .ok ({ s with limited := true }, false)
      else
        .ok ({ s with
          cursors := next :: s.cursors
          cursor := some next
          limited := s.limited || isLast }, true)

/-- The request for a page, `transcriptExport.ts:75`. -/
def pageRequest (sessionId : String) (cursor : Option TranscriptCursor) : TranscriptRequest :=
  { sessionId, cursor, maxRecords := some 25, maxBytes := some 131072, recordId := none }

variable (sessionId : String) (read : Nat → TranscriptRequest → Except String TranscriptPage)
  (cancelled : Nat → Bool)

/-- Follows `transcriptExport.ts:73–108`, with so many pages left. The reader and the cancellation
answer to their calls in turn. -/
def exportPages : Nat → Excerpt → Except String (Except Excerpt Excerpt)
  | 0, s => .ok (.ok s)
  | left + 1, s =>
    let pageIndex := maxPages - (left + 1)
    if cancelled (2 * pageIndex) then .error "Preview cancelled."
    else
      match read pageIndex (pageRequest sessionId s.cursor) with
      | .error e => .error e
      | .ok page =>
        if cancelled (2 * pageIndex + 1) then .error "Preview cancelled."
        else
          match exportPage platform options page (pageIndex == maxPages - 1) s with
          | .error s => .ok (.error s)
          | .ok (s, false) => .ok (.ok s)
          | .ok (s, true) => exportPages left s

end Loop

/-! ### The document -/

/-- A piece of the document: fixed markup of the template, the front of an element with an id, the
front of a link, or text. -/
inductive Piece where
  | markup (text : String)
  | element (tag : String) (id : JsString) (attributes : String)
  | link (target : JsString)
  | text (text : JsString)

/-- A piece as it is written. -/
def Piece.render : Piece → JsString
  | .markup content => js content
  | .element tag id attributes =>
    js "<" ++ js tag ++ js " id=\"" ++ id ++ js "\"" ++ js attributes ++ js ">"
  | .link target => js "<a href=\"#" ++ target ++ js "\">"
  | .text content => content

/-- The pieces of a document as they are written. -/
def render (pieces : List Piece) : JsString :=
  pieces.flatMap Piece.render

/-- Follows `transcriptExport.ts:111–114`. An empty call id is none. -/
def addAnchor (isKind : JsString → Bool) (anchors : List (JsString × JsString))
    (block : EntryBlock) : List (JsString × JsString) :=
  match block.call with
  | none => anchors
  | some call =>
    if call ≠ [] ∧ isKind block.kind then (call, block.anchor) :: anchors else anchors

/-- The anchor which the last block of some kinds with a call id has,
`transcriptExport.ts:110–114`. -/
def anchorsOf (isKind : JsString → Bool) (entries : List Entry) : List (JsString × JsString) :=
  (entries.flatMap (·.blocks)).foldl (addAnchor isKind) []

/-- `calls`, `transcriptExport.ts:112`. -/
def calls (entries : List Entry) : List (JsString × JsString) :=
  anchorsOf (· = js "tool_call") entries

/-- `results`, `transcriptExport.ts:113`. -/
def results (entries : List Entry) : List (JsString × JsString) :=
  anchorsOf isToolResult entries

/-- Follows `transcriptExport.ts:119`. -/
def peerOf (entries : List Entry) (block : EntryBlock) : Option JsString :=
  match block.call with
  | none => none
  | some call =>
    if call = [] then none
    else if block.kind = js "tool_call" then (results entries).lookup call
    else (calls entries).lookup call

/-- Text with a middle dot in front, when there is any. -/
def dotted (text : JsString) : JsString :=
  if text = [] then [] else js " · " ++ text

/-- The link to the other half of a call, `transcriptExport.ts:120`. -/
def peerPieces (block : EntryBlock) : Option JsString → List Piece
  | none => []
  | some peer =>
    [.link peer,
      .text (js "Related tool " ++
        if block.kind = js "tool_call" then js "result" else js "call"),
      .markup "</a>"]

/-- A section of the document, `transcriptExport.ts:120`. -/
def sectionPieces (entries : List Entry) (block : EntryBlock) : List Piece :=
  [.element "section" block.anchor "", .markup "<h3>",
    .text (block.kind.map (fun c ↦ if c = 95 then 32 else c) ++ dotted block.name),
    .markup "</h3>"] ++
  peerPieces block (peerOf entries block) ++
  [.markup "<pre>", .text block.html, .markup "</pre></section>"]

/-- An article of the document, `transcriptExport.ts:118–121`. -/
def articlePieces (entries : List Entry) (entry : Entry) : List Piece :=
  [.element "article" entry.anchor "", .markup "<h2>",
    .text (entry.role ++ js " · " ++ entry.anchor), .markup "</h2>"] ++
  (if entry.time = [] then [] else [.markup "<p>", .text entry.time, .markup "</p>"]) ++
  entry.blocks.flatMap (sectionPieces entries) ++
  [.link (js "index"), .text (js "Back to index"), .markup "</a></article>"]

/-- An item of the index, `transcriptExport.ts:117`. -/
def indexPieces (entry : Entry) : List Piece :=
  [.markup "<li>", .link entry.anchor,
    .text (entry.role ++ js " · " ++ entry.anchor ++ dotted entry.time), .markup "</a></li>"]

/-- `coverage`, `transcriptExport.ts:115`. -/
def coverage (complete : Bool) : String :=
  if complete then "Source read to its end" else "Incomplete source excerpt"

/-- `warning`, `transcriptExport.ts:116`. -/
def warning : String :=
  "Automatic redaction is not exhaustive. Review every included section before sharing. " ++
  "Unknown records, attachments, and excluded content are omitted. " ++
  "This is an offline transcript excerpt, not an accounting report."

/-- The head of the document, `transcriptExport.ts:122`. -/
def documentHead : String :=
  "<!doctype html><html lang=\"en\"><head><meta charset=\"utf-8\">" ++
  "<meta name=\"viewport\" content=\"width=device-width, initial-scale=1\">" ++
  "<meta http-equiv=\"Content-Security-Policy\" content=\"default-src 'none'; " ++
  "style-src 'unsafe-inline'; base-uri 'none'; form-action 'none'; frame-src 'none'\">" ++
  "<title>Odometer transcript excerpt</title><style>" ++
  "body\x7bfont:16px/1.5 system-ui,sans-serif;max-width:960px;margin:auto;padding:24px;" ++
  "color:#202020;background:#fafafa\x7d" ++
  "article\x7bborder-top:1px solid #aaa;margin-top:24px;padding-top:16px\x7d" ++
  "pre\x7bwhite-space:pre-wrap;overflow-wrap:anywhere;background:#fff;padding:16px;" ++
  "border:1px solid #ddd\x7da\x7bcolor:#234fbd\x7dh2\x7bfont-size:1.25rem\x7d" ++
  "h3\x7bfont-size:1rem\x7d" ++
  ".notice\x7bborder-left:4px solid #b66d00;padding:12px;background:#fff4df\x7d" ++
  "nav\x7bmax-height:300px;overflow:auto\x7d</style></head><body>" ++
  "<h1>Odometer transcript excerpt</h1><p class=\"notice\"><strong>"

/-- The pieces of `html`, `transcriptExport.ts:115–122`. -/
def document (options : TranscriptExportOptions) (s : Excerpt) : List Piece :=
  [.markup documentHead, .text (js (coverage s.complete)), .markup "</strong>",
    .text (js ". " ++ js warning), .markup "</p><p>",
    .text (js (toString s.records) ++ js " source records read. " ++ js (toString s.omitted) ++
      js " records or blocks omitted. " ++ js (toString s.redactions) ++ js " redactions. " ++
      js (if s.limited then "Preview safety limit reached." else "")),
    .markup "</p><p>",
    .text (js "Included: conversation text" ++
      js (if options.toolCalls then ", tool calls" else "") ++
      js (if options.toolResults then ", tool results" else "") ++
      js (if options.reasoning then ", reasoning" else "") ++
      js ". Tool payloads may contain sensitive information."),
    .markup "</p>", .element "nav" (js "index") " aria-label=\"Record index\"", .markup "<ol>"] ++
  s.entries.flatMap indexPieces ++ [.markup "</ol></nav>"] ++
  (if s.entries = [] then
      [.markup "<p>", .text (js "No selected content is available."), .markup "</p>"]
    else s.entries.flatMap (articlePieces s.entries)) ++
  [.markup "</body></html>"]

section Whole

variable (platform : Platform) (options : TranscriptExportOptions) (sessionId : String)
  (read : Nat → TranscriptRequest → Except String TranscriptPage) (cancelled : Nat → Bool)

/-- Follows `transcriptExport.ts:58–108`. -/
def readExcerpt : Except String (Except Excerpt Excerpt) :=
  if 100 < options.redactPhrases.length ∨ options.redactPhrases.any (256 < ·.length) then
    throw "Use at most 100 review phrases, each at most 256 characters."
  else exportPages platform options sessionId read cancelled maxPages .initial

/-- The variables after the loop, `transcriptExport.ts:109`. -/
def settle (ended : Except Excerpt Excerpt) : Excerpt :=
  let s := match ended with
    | .error s => s
    | .ok s => s
  { s with complete := s.complete && !s.limited }

/-- Follows `transcriptExport.ts:122–123`. -/
def preview (s : Excerpt) : TranscriptExportPreview :=
  { html := render (document options s)
    complete := s.complete
    records := s.records
    omitted := s.omitted
    redactions := s.redactions
    limited := s.limited }

/-- Follows `transcriptExport.ts:52–124`. -/
def previewTranscriptExport : Except String TranscriptExportPreview := do
  let ended ← readExcerpt platform options sessionId read cancelled
  return preview options (settle ended)

end Whole

end AgentOdometer.TranscriptExport
