import AgentOdometer.TranscriptExport.Entries

/-!
# What the text of a transcript can change

Two readers whose pages differ only in some texts are read in the same steps. Where the texts are
those of blocks which are not selected, nothing changes at all; where they are texts and names of
any blocks, only text of the document does, unless the size limit cuts one of the readings.
-/

namespace AgentOdometer.TranscriptExport

open Transcript (TranscriptCursor TranscriptRequest)

variable {platform : Platform} {options : TranscriptExportOptions}
  {same : JsString → TranscriptBlock → TranscriptBlock → Prop}

/-! ### Readers which agree -/

section Agreement

variable (same : JsString → TranscriptBlock → TranscriptBlock → Prop)

/-- Two presentations whose blocks agree, given their role. -/
structure ViewsAgree (view view' : TranscriptPresentation) : Prop where
  role : view'.role = view.role
  timestamp : view'.timestamp = view.timestamp
  blocks : List.Forall₂ (same (roleOf (some view))) view.blocks view'.blocks

/-- Two records whose blocks agree. -/
structure RecordsAgree (record record' : TranscriptRecord) : Prop where
  issue : record'.issue = record.issue
  presentation : Option.Rel (ViewsAgree same) record.presentation record'.presentation

/-- Two pages whose blocks agree. -/
structure PagesAgree (page page' : TranscriptPage) : Prop where
  availability : page'.availability = page.availability
  issues : page'.issues = page.issues
  records : List.Forall₂ (RecordsAgree same) page.records page'.records
  nextCursor : page'.nextCursor = page.nextCursor
  sourceComplete : page'.sourceComplete = page.sourceComplete

/-- Two readers which fail together, and otherwise answer with pages whose blocks agree. -/
def ReadersAgree (read read' : Nat → TranscriptRequest → Except String TranscriptPage) : Prop :=
  ∀ index request,
    match read index request, read' index request with
    | .ok page, .ok page' => PagesAgree same page page'
    | .error e, .error e' => e = e'
    | _, _ => False

end Agreement

/-- Blocks which are the same where one of them is selected. -/
def SameSelected (options : TranscriptExportOptions) (role : JsString)
    (block block' : TranscriptBlock) : Prop :=
  isAllowed options role block.kind ∨ isAllowed options role block'.kind → block = block'

/-- Blocks which differ in nothing but their texts and names. -/
def SameShape (_ : JsString) (block block' : TranscriptBlock) : Prop :=
  block.kind = block'.kind ∧ block.callId = block'.callId

theorem roleOf_eq {view view' : Option TranscriptPresentation}
    (h : Option.Rel (ViewsAgree same) view view') : roleOf view' = roleOf view := by
  cases h with
  | none => rfl
  | some h => rw [roleOf, roleOf, Option.bind_some, Option.bind_some, h.role]

theorem timeOf_eq {view view' : Option TranscriptPresentation}
    (h : Option.Rel (ViewsAgree same) view view') :
    timeOf platform view' = timeOf platform view := by
  cases h with
  | none => rfl
  | some h => rw [timeOf, timeOf, Option.bind_some, Option.bind_some, h.timestamp]

theorem forall₂_blocks {view view' : Option TranscriptPresentation}
    (h : Option.Rel (ViewsAgree same) view view') :
    List.Forall₂ (same (roleOf view)) ((view.map (·.blocks)).getD [])
      ((view'.map (·.blocks)).getD []) := by
  cases h with
  | none => exact .nil
  | some h => exact h.blocks

theorem hasGap_eq {page page' : TranscriptPage} (h : PagesAgree same page page') :
    hasGap page' = hasGap page := by
  rw [hasGap, hasGap, h.issues, h.availability]

/-! ### Blocks which are not selected -/

theorem exportBlocks_congr {role anchor : JsString} (blockIndex : Nat)
    {rest rest' : List TranscriptBlock} (h : List.Forall₂ (SameSelected options role) rest rest')
    (s : Excerpt) (blocks : List EntryBlock) :
    exportBlocks platform options role anchor blockIndex rest' s blocks =
      exportBlocks platform options role anchor blockIndex rest s blocks := by
  induction h generalizing blockIndex s blocks with
  | nil => rfl
  | @cons block block' rest rest' hblock _ ih =>
    have hstep : exportBlock platform options role anchor blockIndex block' s blocks =
        exportBlock platform options role anchor blockIndex block s blocks := by
      by_cases hallowed : isAllowed options role block.kind ∨ isAllowed options role block'.kind
      · rw [hblock hallowed]
      · rw [not_or] at hallowed
        rw [exportBlock, exportBlock, if_neg hallowed.1, if_neg hallowed.2]
    rw [exportBlocks, exportBlocks, hstep]
    split
    · rfl
    · exact ih _ _ _

theorem exportRecords_congr {records records' : List TranscriptRecord}
    (h : List.Forall₂ (RecordsAgree (SameSelected options)) records records') (s : Excerpt) :
    exportRecords platform options records' s = exportRecords platform options records s := by
  induction h generalizing s with
  | nil => rfl
  | @cons record record' records records' hrecord _ ih =>
    have hblocks := forall₂_blocks hrecord.presentation
    have hempty : (record'.presentation.map (·.blocks)).getD [] = [] ↔
        (record.presentation.map (·.blocks)).getD [] = [] := by
      rw [← List.length_eq_zero_iff, ← List.length_eq_zero_iff, hblocks.length_eq]
    have hstep : exportRecord platform options s record' =
        exportRecord platform options s record := by
      unfold exportRecord
      simp only [hrecord.issue, roleOf_eq hrecord.presentation, timeOf_eq hrecord.presentation,
        exportBlocks_congr 0 hblocks, hempty]
    rw [exportRecords, exportRecords, hstep]
    split
    · rfl
    · exact ih _

variable {sessionId : String} {cancelled : Nat → Bool}
  {read read' : Nat → TranscriptRequest → Except String TranscriptPage}

/-- What the blocks which are not selected hold changes nothing. -/
theorem exportPages_congr (h : ReadersAgree (SameSelected options) read read') (left : Nat)
    (s : Excerpt) : exportPages platform options sessionId read' cancelled left s =
      exportPages platform options sessionId read cancelled left s := by
  induction left generalizing s with
  | zero => rfl
  | succ left ih =>
    have hread := h (maxPages - (left + 1)) (pageRequest sessionId s.cursor)
    rw [exportPages, exportPages]
    split
    · rfl
    revert hread
    cases read (maxPages - (left + 1)) (pageRequest sessionId s.cursor) with
    | error e =>
      cases read' (maxPages - (left + 1)) (pageRequest sessionId s.cursor) with
      | error e' =>
        intro heq
        exact congrArg Except.error (Eq.symm heq)
      | ok page' => exact False.elim
    | ok page =>
      cases read' (maxPages - (left + 1)) (pageRequest sessionId s.cursor) with
      | error e' => exact False.elim
      | ok page' =>
        intro (hpage : PagesAgree (SameSelected options) page page')
        have hstep : ∀ isLast, exportPage platform options page' isLast s =
            exportPage platform options page isLast s := by
          intro isLast
          unfold exportPage
          simp only [hasGap_eq hpage, exportRecords_congr hpage.records, hpage.nextCursor,
            hpage.sourceComplete]
        simp only [hstep, ih]

/-! ### Texts and names of blocks -/

/-- A collected block without its text and name. -/
def EntryBlock.shape (block : EntryBlock) : EntryBlock :=
  { block with html := [], name := [] }

/-- An entry without the texts and names of its blocks. -/
def Entry.shape (entry : Entry) : Entry :=
  { entry with blocks := entry.blocks.map EntryBlock.shape }

/-- The variables are the same but for texts, names, and the counts which are taken of these. -/
structure Excerpt.Alike (s s' : Excerpt) : Prop where
  entries : s'.entries.map Entry.shape = s.entries.map Entry.shape
  cursors : s'.cursors = s.cursors
  cursor : s'.cursor = s.cursor
  records : s'.records = s.records
  omitted : s'.omitted = s.omitted
  complete : s'.complete = s.complete
  limited : s'.limited = s.limited
  gap : s'.gap = s.gap

theorem Excerpt.Alike.refl (s : Excerpt) : s.Alike s :=
  ⟨rfl, rfl, rfl, rfl, rfl, rfl, rfl, rfl⟩

section Shapes

variable {s s' t t' : Excerpt} {blocks blocks' done done' : List EntryBlock}
  {role anchor : JsString}

/-- One block, unless the size limit is met. -/
theorem exportBlock_alike {blockIndex : Nat} {block block' : TranscriptBlock}
    (hblock : SameShape role block block') (h : s.Alike s')
    (hblocks : blocks'.map EntryBlock.shape = blocks.map EntryBlock.shape)
    (hstep : exportBlock platform options role anchor blockIndex block s blocks = .ok (t, done))
    (hstep' : exportBlock platform options role anchor blockIndex block' s' blocks' =
      .ok (t', done')) :
    t.Alike t' ∧ done'.map EntryBlock.shape = done.map EntryBlock.shape := by
  obtain ⟨hkind, hcall⟩ := hblock
  unfold exportBlock at hstep hstep'
  rw [← hkind] at hstep'
  by_cases hallowed : isAllowed options role block.kind
  · simp only [hallowed, if_true] at hstep hstep'
    split at hstep
    · cases hstep
    split at hstep'
    · cases hstep'
    cases hstep
    cases hstep'
    refine ⟨⟨h.entries, h.cursors, h.cursor, h.records, h.omitted, h.complete, h.limited, h.gap⟩,
      ?_⟩
    rw [List.map_append, List.map_append, hblocks]
    simp only [List.map_cons, List.map_nil, entryBlock, EntryBlock.shape, hkind, hcall]
  · rw [if_neg hallowed] at hstep hstep'
    cases hstep
    cases hstep'
    exact ⟨⟨h.entries, h.cursors, h.cursor, h.records, congrArg (· + 1) h.omitted, h.complete,
      h.limited, h.gap⟩, hblocks⟩

theorem exportBlocks_alike {blockIndex : Nat} {rest rest' : List TranscriptBlock}
    (hrest : List.Forall₂ (SameShape role) rest rest') (h : s.Alike s')
    (hblocks : blocks'.map EntryBlock.shape = blocks.map EntryBlock.shape)
    (hstep : exportBlocks platform options role anchor blockIndex rest s blocks = .ok (t, done))
    (hstep' : exportBlocks platform options role anchor blockIndex rest' s' blocks' =
      .ok (t', done')) :
    t.Alike t' ∧ done'.map EntryBlock.shape = done.map EntryBlock.shape := by
  induction hrest generalizing blockIndex s s' blocks blocks' with
  | nil =>
    cases hstep
    cases hstep'
    exact ⟨h, hblocks⟩
  | cons hblock _ ih =>
    rw [exportBlocks] at hstep hstep'
    split at hstep
    · cases hstep
    split at hstep'
    · cases hstep'
    next _ _ hfirst _ _ _ hfirst' =>
      obtain ⟨halike, hdone⟩ := exportBlock_alike hblock h hblocks hfirst hfirst'
      exact ih halike hdone hstep hstep'

theorem exportRecord_alike {record record' : TranscriptRecord}
    (hrecord : RecordsAgree SameShape record record') (h : s.Alike s')
    (hstep : exportRecord platform options s record = .ok t)
    (hstep' : exportRecord platform options s' record' = .ok t') : t.Alike t' := by
  have hviews := forall₂_blocks hrecord.presentation
  have hempty : (record'.presentation.map (·.blocks)).getD [] = [] ↔
      (record.presentation.map (·.blocks)).getD [] = [] := by
    rw [← List.length_eq_zero_iff, ← List.length_eq_zero_iff, hviews.length_eq]
  have hstart : Excerpt.Alike
      { s with records := s.records + 1, gap := s.gap || record.issue.isSome }
      { s' with records := s'.records + 1, gap := s'.gap || record'.issue.isSome } :=
    ⟨h.entries, h.cursors, h.cursor, congrArg (· + 1) h.records, h.omitted, h.complete, h.limited,
      by rw [h.gap, hrecord.issue]⟩
  unfold exportRecord at hstep hstep'
  simp only [roleOf_eq hrecord.presentation, timeOf_eq hrecord.presentation, hempty] at hstep'
  simp only at hstep
  split at hstep
  · cases hstep
  split at hstep'
  · cases hstep'
  next u done hblocks _ u' done' hblocks' =>
    have hanchor : recordAnchor (s'.records + 1) = recordAnchor (s.records + 1) := by
      rw [h.records]
    rw [hanchor] at hblocks' hstep'
    obtain ⟨halike, hdone⟩ := exportBlocks_alike hviews hstart rfl hblocks hblocks'
    have hnone : done' = [] ↔ done = [] := by
      have hlength := congrArg List.length hdone
      rw [List.length_map, List.length_map] at hlength
      rw [← List.length_eq_zero_iff, ← List.length_eq_zero_iff, hlength]
    simp only [ne_eq, hnone] at hstep'
    split at hstep
    · next hsome =>
      rw [if_pos hsome] at hstep'
      cases hstep
      cases hstep'
      refine ⟨?_, halike.cursors, halike.cursor, halike.records, halike.omitted, halike.complete,
        halike.limited, halike.gap⟩
      rw [List.map_append, List.map_append, halike.entries]
      simp only [List.map_cons, List.map_nil, Entry.shape, hdone]
    · next hsome =>
      rw [if_neg hsome] at hstep'
      split at hstep
      · next hviewed =>
        rw [if_pos hviewed] at hstep'
        cases hstep
        cases hstep'
        exact ⟨halike.entries, halike.cursors, halike.cursor, halike.records,
          congrArg (· + 1) halike.omitted, halike.complete, halike.limited, halike.gap⟩
      · next hviewed =>
        rw [if_neg hviewed] at hstep'
        cases hstep
        cases hstep'
        exact halike

theorem exportRecords_alike {records records' : List TranscriptRecord}
    (hrecords : List.Forall₂ (RecordsAgree SameShape) records records') (h : s.Alike s')
    (hstep : exportRecords platform options records s = .ok t)
    (hstep' : exportRecords platform options records' s' = .ok t') : t.Alike t' := by
  induction hrecords generalizing s s' with
  | nil =>
    cases hstep
    cases hstep'
    exact h
  | cons hrecord _ ih =>
    rw [exportRecords] at hstep hstep'
    split at hstep
    · cases hstep
    split at hstep'
    · cases hstep'
    next hfirst _ _ hfirst' =>
      exact ih (exportRecord_alike hrecord h hfirst hfirst') hstep hstep'

/-- One page, unless the size limit is met: the loop goes on in both readings or in none. -/
theorem exportPage_alike {page page' : TranscriptPage} {isLast more more' : Bool}
    (hpage : PagesAgree SameShape page page') (h : s.Alike s')
    (hstep : exportPage platform options page isLast s = .ok (t, more))
    (hstep' : exportPage platform options page' isLast s' = .ok (t', more')) :
    t.Alike t' ∧ more' = more := by
  have hstart : Excerpt.Alike { s with gap := s.gap || hasGap page }
      { s' with gap := s'.gap || hasGap page' } :=
    ⟨h.entries, h.cursors, h.cursor, h.records, h.omitted, h.complete, h.limited,
      by rw [h.gap, hasGap_eq hpage]⟩
  unfold exportPage at hstep hstep'
  simp only at hstep hstep'
  split at hstep
  · cases hstep
  split at hstep'
  · cases hstep'
  next u hrecords _ u' hrecords' =>
    have halike := exportRecords_alike hpage.records hstart hrecords hrecords'
    rw [hpage.nextCursor, hpage.sourceComplete, halike.gap, halike.cursors, halike.limited]
      at hstep'
    split at hstep
    · next hnext =>
      rw [hnext] at hstep'
      cases hstep
      cases hstep'
      exact ⟨⟨halike.entries, rfl, halike.cursor, halike.records, halike.omitted, rfl, rfl, rfl⟩,
        rfl⟩
    · next next hnext =>
      rw [hnext] at hstep'
      simp only at hstep'
      split at hstep
      · next hmem =>
        rw [if_pos hmem] at hstep'
        cases hstep
        cases hstep'
        exact ⟨⟨halike.entries, rfl, halike.cursor, halike.records, halike.omitted,
          halike.complete, rfl, rfl⟩, rfl⟩
      · next hmem =>
        rw [if_neg hmem] at hstep'
        cases hstep
        cases hstep'
        exact ⟨⟨halike.entries, rfl, rfl, halike.records, halike.omitted, halike.complete, rfl,
          rfl⟩, rfl⟩

/-- The whole loop, unless the size limit is met in one of the readings. -/
theorem exportPages_alike (hread : ReadersAgree SameShape read read') (left : Nat)
    (h : s.Alike s')
    (hstep : exportPages platform options sessionId read cancelled left s = .ok (.ok t))
    (hstep' : exportPages platform options sessionId read' cancelled left s' = .ok (.ok t')) :
    t.Alike t' := by
  induction left generalizing s s' with
  | zero =>
    cases hstep
    cases hstep'
    exact h
  | succ left ih =>
    have hanswers := hread (maxPages - (left + 1)) (pageRequest sessionId s.cursor)
    rw [exportPages] at hstep hstep'
    rw [h.cursor] at hstep'
    split at hstep
    · cases hstep
    next hgoing =>
    rw [if_neg hgoing] at hstep'
    split at hstep
    · cases hstep
    next page hpage =>
    split at hstep'
    · cases hstep'
    next page' hpage' =>
    rw [hpage, hpage'] at hanswers
    split at hstep
    · cases hstep
    next hgoing =>
    rw [if_neg hgoing] at hstep'
    split at hstep
    · cases hstep
    · next u hfirst =>
      split at hstep'
      · cases hstep'
      · next u' hfirst' =>
        cases hstep
        cases hstep'
        exact (exportPage_alike hanswers h hfirst hfirst').1
      · next u' hfirst' => exact absurd (exportPage_alike hanswers h hfirst hfirst').2 (by decide)
    · next u hfirst =>
      split at hstep'
      · cases hstep'
      · next u' hfirst' => exact absurd (exportPage_alike hanswers h hfirst hfirst').2 (by decide)
      · next u' hfirst' => exact ih (exportPage_alike hanswers h hfirst hfirst').1 hstep hstep'

end Shapes

end AgentOdometer.TranscriptExport
