import AgentOdometer.TranscriptExport.Preview

/-!
# The entries of an excerpt

The loop of `transcriptExport.ts:73–108` collects exactly the selected blocks of the records which
it reads. It calls the excerpt complete only after the last page of the source, and only if no page
or record on the way had an issue and no limit was met.
-/

namespace AgentOdometer.TranscriptExport

open Transcript (TranscriptCursor TranscriptRequest)

variable (platform : Platform) (options : TranscriptExportOptions)

/-- The blocks which are selected of a record. -/
def selectedBlocks (role anchor : JsString) : Nat → List TranscriptBlock → List EntryBlock
  | _, [] => []
  | blockIndex, block :: rest =>
    if isAllowed options role block.kind then
      entryBlock platform options anchor blockIndex block ::
        selectedBlocks role anchor (blockIndex + 1) rest
    else selectedBlocks role anchor (blockIndex + 1) rest

/-- The entry of the record of a number. -/
def entryOf (number : Nat) (record : TranscriptRecord) : Entry :=
  { anchor := recordAnchor number
    role := roleOf record.presentation
    time := timeOf platform record.presentation
    blocks := selectedBlocks platform options (roleOf record.presentation) (recordAnchor number) 0
      ((record.presentation.map (·.blocks)).getD []) }

/-- The entries of the records from a number on: those which have a block. -/
def entriesFrom : Nat → List TranscriptRecord → List Entry
  | _, [] => []
  | number, record :: records =>
    if (entryOf platform options number record).blocks = [] then entriesFrom (number + 1) records
    else entryOf platform options number record :: entriesFrom (number + 1) records

variable {platform options} {s s' : Excerpt} {role anchor : JsString}

theorem entriesFrom_append (number : Nat) (front back : List TranscriptRecord) :
    entriesFrom platform options number (front ++ back) =
      entriesFrom platform options number front ++
        entriesFrom platform options (number + front.length) back := by
  induction front generalizing number with
  | nil => rfl
  | cons record front ih =>
    have hnumber : number + 1 + front.length = number + (record :: front).length := by
      rw [List.length_cons]
      omega
    rw [List.cons_append, entriesFrom, entriesFrom, ih, hnumber]
    split
    · rfl
    · rfl

/-! ### Records -/

/-- The variables which the blocks of a record do not change. -/
structure Excerpt.Frame (s s' : Excerpt) : Prop where
  entries : s'.entries = s.entries
  cursors : s'.cursors = s.cursors
  cursor : s'.cursor = s.cursor
  records : s'.records = s.records
  complete : s'.complete = s.complete
  gap : s'.gap = s.gap

theorem Excerpt.Frame.refl (s : Excerpt) : s.Frame s :=
  ⟨rfl, rfl, rfl, rfl, rfl, rfl⟩

theorem Excerpt.Frame.trans {s'' : Excerpt} (h : s.Frame s') (h' : s'.Frame s'') : s.Frame s'' :=
  ⟨h'.entries.trans h.entries, h'.cursors.trans h.cursors, h'.cursor.trans h.cursor,
    h'.records.trans h.records, h'.complete.trans h.complete, h'.gap.trans h.gap⟩

variable (platform options role anchor) in
/-- What one block does. -/
theorem exportBlock_cases {blockIndex : Nat} (block : TranscriptBlock) (s : Excerpt)
    (blocks : List EntryBlock) :
    (∃ s', exportBlock platform options role anchor blockIndex block s blocks = .error s' ∧
        s.Frame s' ∧ s'.limited = true) ∨
      ∃ s', exportBlock platform options role anchor blockIndex block s blocks =
          .ok (s', blocks ++ selectedBlocks platform options role anchor blockIndex [block]) ∧
        s.Frame s' ∧ s'.limited = s.limited := by
  unfold exportBlock
  rw [selectedBlocks, selectedBlocks]
  by_cases hallowed : isAllowed options role block.kind
  · simp only [hallowed, if_true]
    split
    · exact .inl ⟨_, rfl, ⟨rfl, rfl, rfl, rfl, rfl, rfl⟩, rfl⟩
    · exact .inr ⟨_, rfl, ⟨rfl, rfl, rfl, rfl, rfl, rfl⟩, rfl⟩
  · rw [if_neg hallowed, if_neg hallowed, List.append_nil]
    exact .inr ⟨_, rfl, ⟨rfl, rfl, rfl, rfl, rfl, rfl⟩, rfl⟩

variable (platform options role anchor) in
/-- What the blocks of a record do. -/
theorem exportBlocks_cases (blockIndex : Nat) (rest : List TranscriptBlock) (s : Excerpt)
    (blocks : List EntryBlock) :
    (∃ s', exportBlocks platform options role anchor blockIndex rest s blocks = .error s' ∧
        s.Frame s' ∧ s'.limited = true) ∨
      ∃ s', exportBlocks platform options role anchor blockIndex rest s blocks =
          .ok (s', blocks ++ selectedBlocks platform options role anchor blockIndex rest) ∧
        s.Frame s' ∧ s'.limited = s.limited := by
  induction rest generalizing blockIndex s blocks with
  | nil =>
    rw [exportBlocks, selectedBlocks, List.append_nil]
    exact .inr ⟨s, rfl, .refl s, rfl⟩
  | cons block rest ih =>
    have hsplit : selectedBlocks platform options role anchor blockIndex (block :: rest) =
        selectedBlocks platform options role anchor blockIndex [block] ++
          selectedBlocks platform options role anchor (blockIndex + 1) rest := by
      rw [selectedBlocks, selectedBlocks, selectedBlocks]
      split
      · rfl
      · rfl
    rw [exportBlocks]
    rcases exportBlock_cases platform options role anchor block s blocks with
      ⟨s', hblock, hframe, hlimited⟩ |
      ⟨s', hblock, hframe, hlimited⟩
    · rw [hblock]
      exact .inl ⟨s', rfl, hframe, hlimited⟩
    · rw [hblock, hsplit, ← List.append_assoc]
      rcases ih (blockIndex + 1) s' _ with ⟨s'', hrest, hframe', hlimited'⟩ |
        ⟨s'', hrest, hframe', hlimited'⟩
      · exact .inl ⟨s'', hrest, hframe.trans hframe', hlimited'⟩
      · exact .inr ⟨s'', hrest, hframe.trans hframe', hlimited'.trans hlimited⟩

/-- The variables after so many records more, without a limit. -/
structure Excerpt.Advanced (platform : Platform) (options : TranscriptExportOptions)
    (records : List TranscriptRecord) (s s' : Excerpt) : Prop where
  entries : s'.entries = s.entries ++ entriesFrom platform options (s.records + 1) records
  cursors : s'.cursors = s.cursors
  cursor : s'.cursor = s.cursor
  count : s'.records = s.records + records.length
  complete : s'.complete = s.complete
  limited : s'.limited = s.limited
  gap : s'.gap = (s.gap || records.any (·.issue.isSome))

/-- The variables after the size limit was met in a record. -/
structure Excerpt.Cut (platform : Platform) (options : TranscriptExportOptions)
    (records : List TranscriptRecord) (s s' : Excerpt) : Prop where
  entries : ∃ front, front <+: records ∧
    s'.entries = s.entries ++ entriesFrom platform options (s.records + 1) front
  complete : s'.complete = s.complete
  limited : s'.limited = true

variable (platform options) in
/-- What a record does. -/
theorem exportRecord_cases (record : TranscriptRecord) (s : Excerpt) :
    (∃ s', exportRecord platform options s record = .error s' ∧
        s.Cut platform options [record] s') ∨
      ∃ s', exportRecord platform options s record = .ok s' ∧
        s.Advanced platform options [record] s' := by
  have hentry : entriesFrom platform options (s.records + 1) [record] =
      if (entryOf platform options (s.records + 1) record).blocks = [] then []
        else [entryOf platform options (s.records + 1) record] := by
    rw [entriesFrom, entriesFrom]
  have hissue : [record].any (·.issue.isSome) = record.issue.isSome := by
    rw [List.any_cons, List.any_nil, Bool.or_false]
  unfold exportRecord
  simp only
  rcases exportBlocks_cases platform options (roleOf record.presentation)
    (recordAnchor (s.records + 1)) 0 ((record.presentation.map (·.blocks)).getD [])
    { s with records := s.records + 1, gap := s.gap || record.issue.isSome } [] with
    ⟨s', hblocks, hframe, hlimited⟩ | ⟨s', hblocks, hframe, hlimited⟩
  · rw [hblocks]
    refine .inl ⟨s', rfl, ⟨[], List.nil_prefix, ?_⟩, hframe.complete, hlimited⟩
    rw [entriesFrom, List.append_nil]
    exact hframe.entries
  · rw [hblocks, List.nil_append]
    right
    by_cases hnone : (entryOf platform options (s.records + 1) record).blocks = []
    · have hsame : s.Advanced platform options [record] s' := by
        refine ⟨?_, hframe.cursors, hframe.cursor, hframe.records, hframe.complete, hlimited, ?_⟩
        · rw [hentry, if_pos hnone, List.append_nil]
          exact hframe.entries
        · rw [hissue]
          exact hframe.gap
      simp only
      split
      · next hsome => exact absurd hnone hsome
      split
      · exact ⟨_, rfl, hsame.entries, hsame.cursors, hsame.cursor, hsame.count, hsame.complete,
          hsame.limited, hsame.gap⟩
      · exact ⟨s', rfl, hsame⟩
    · simp only
      split
      · refine ⟨_, rfl, ?_, hframe.cursors, hframe.cursor, hframe.records, hframe.complete, hlimited,
          ?_⟩
        · rw [hentry, if_neg hnone]
          show s'.entries ++ _ = s.entries ++ _
          rw [hframe.entries]
          rfl
        · rw [hissue]
          exact hframe.gap
      · next hempty => exact absurd (not_not.mp hempty) hnone

variable (platform options) in
/-- What the records of a page do. -/
theorem exportRecords_cases (records : List TranscriptRecord) (s : Excerpt) :
    (∃ s', exportRecords platform options records s = .error s' ∧
        s.Cut platform options records s') ∨
      ∃ s', exportRecords platform options records s = .ok s' ∧
        s.Advanced platform options records s' := by
  induction records generalizing s with
  | nil =>
    refine .inr ⟨s, rfl, ?_, rfl, rfl, rfl, rfl, rfl, ?_⟩
    · rw [entriesFrom, List.append_nil]
    · rw [List.any_nil, Bool.or_false]
  | cons record records ih =>
    have hsplit : ∀ rest : List TranscriptRecord,
        entriesFrom platform options (s.records + 1) (record :: rest) =
          entriesFrom platform options (s.records + 1) [record] ++
            entriesFrom platform options (s.records + 1 + 1) rest :=
      entriesFrom_append (s.records + 1) [record]
    rw [exportRecords]
    rcases exportRecord_cases platform options record s with ⟨s', hrecord, hcut⟩ |
      ⟨s', hrecord, hadvanced⟩
    · rw [hrecord]
      obtain ⟨front, hfront, hentries⟩ := hcut.entries
      exact .inl ⟨s', rfl, ⟨front, hfront.trans (List.prefix_append [record] records), hentries⟩,
        hcut.complete, hcut.limited⟩
    · have hnumber : s'.records = s.records + 1 := hadvanced.count
      rw [hrecord]
      rcases ih s' with ⟨s'', hrest, hcut⟩ | ⟨s'', hrest, hmore⟩
      · obtain ⟨front, hfront, hentries⟩ := hcut.entries
        refine .inl ⟨s'', hrest, ⟨record :: front, List.cons_prefix_cons.mpr ⟨rfl, hfront⟩, ?_⟩,
          hcut.complete.trans hadvanced.complete, hcut.limited⟩
        rw [hentries, hadvanced.entries, hnumber, hsplit front, List.append_assoc]
      · refine .inr ⟨s'', hrest, ?_, hmore.cursors.trans hadvanced.cursors,
          hmore.cursor.trans hadvanced.cursor, ?_, hmore.complete.trans hadvanced.complete,
          hmore.limited.trans hadvanced.limited, ?_⟩
        · rw [hmore.entries, hadvanced.entries, hnumber, hsplit records, List.append_assoc]
        · rw [hmore.count, hnumber, List.length_cons]
          omega
        · rw [hmore.gap, hadvanced.gap, List.any_cons, List.any_cons, List.any_nil, Bool.or_false,
            Bool.or_assoc]

/-! ### Pages -/

variable (sessionId : String) (read : Nat → TranscriptRequest → Except String TranscriptPage)
  (cancelled : Nat → Bool)

/-- The pages up to the end of the source, from the one of a number and a cursor on. -/
inductive ReadToEnd : Nat → Option TranscriptCursor → List TranscriptPage → Prop
  | last {index : Nat} {cursor : Option TranscriptCursor} {page : TranscriptPage}
      (hread : read index (pageRequest sessionId cursor) = .ok page)
      (hnext : page.nextCursor = none) : ReadToEnd index cursor [page]
  | more {index : Nat} {cursor : Option TranscriptCursor} {next : TranscriptCursor}
      {page : TranscriptPage} {pages : List TranscriptPage}
      (hread : read index (pageRequest sessionId cursor) = .ok page)
      (hnext : page.nextCursor = some next) (hmore : ReadToEnd (index + 1) (some next) pages) :
      ReadToEnd index cursor (page :: pages)

/-- A page without an issue of its own or of a record. -/
def Sound (page : TranscriptPage) : Prop :=
  page.issues = [] ∧ page.availability ∈ [js "available", js "partial"] ∧
    ∀ record ∈ page.records, record.issue = none

theorem sound_of_not_gap {page : TranscriptPage}
    (h : (hasGap page || page.records.any (·.issue.isSome)) = false) : Sound page := by
  obtain ⟨hpage, hrecords⟩ := Bool.or_eq_false_iff.mp h
  obtain ⟨hissues, havailable⟩ := Bool.or_eq_false_iff.mp hpage
  refine ⟨by simpa using hissues, by simpa [imp_iff_not_or] using havailable, fun record hmem ↦ ?_⟩
  have hnone := List.any_eq_false.mp hrecords record hmem
  simpa using hnone

variable (platform options) in
/-- What one page does. -/
theorem exportPage_cases (page : TranscriptPage) (isLast : Bool) (s : Excerpt) :
    (∃ s', exportPage platform options page isLast s = .error s' ∧
        s.Cut platform options page.records s') ∨
      ∃ s', Excerpt.Advanced platform options page.records
        { s with gap := s.gap || hasGap page } s' ∧
        ((page.nextCursor = none ∧ exportPage platform options page isLast s =
            .ok ({ s' with complete := page.sourceComplete && !s'.gap }, false)) ∨
          ∃ next, page.nextCursor = some next ∧
            (next ∈ s.cursors ∧ exportPage platform options page isLast s =
                .ok ({ s' with limited := true }, false) ∨
              next ∉ s.cursors ∧ exportPage platform options page isLast s =
                .ok ({ s' with
                  cursors := next :: s'.cursors
                  cursor := some next
                  limited := s'.limited || isLast }, true))) := by
  unfold exportPage
  simp only
  rcases exportRecords_cases platform options page.records
    { s with gap := s.gap || hasGap page } with ⟨s', hrecords, hcut⟩ | ⟨s', hrecords, hadvanced⟩
  · rw [hrecords]
    exact .inl ⟨s', rfl, hcut.entries, hcut.complete, hcut.limited⟩
  · rw [hrecords]
    refine .inr ⟨s', hadvanced, ?_⟩
    cases hnext : page.nextCursor with
    | none => exact .inl ⟨rfl, rfl⟩
    | some next =>
      refine .inr ⟨next, rfl, ?_⟩
      have hcursors : s'.cursors = s.cursors := hadvanced.cursors
      by_cases hmem : next ∈ s.cursors
      · exact .inl ⟨hmem, if_pos (hcursors ▸ hmem)⟩
      · exact .inr ⟨hmem, if_neg (hcursors ▸ hmem)⟩

variable {sessionId read cancelled}

/-- A page of the loop: the size limit cuts it, or the loop ends with it or goes on. -/
theorem exportPages_turn {left : Nat} {ended : Except Excerpt Excerpt}
    (h : exportPages platform options sessionId read cancelled (left + 1) s = .ok ended) :
    ∃ page, read (maxPages - (left + 1)) (pageRequest sessionId s.cursor) = .ok page ∧
      ((∃ s', s.Cut platform options page.records s' ∧ ended = .error s') ∨
        ∃ s', Excerpt.Advanced platform options page.records
            { s with gap := s.gap || hasGap page } s' ∧
          ((page.nextCursor = none ∧
              ended = .ok { s' with complete := page.sourceComplete && !s'.gap }) ∨
            ∃ next, page.nextCursor = some next ∧
              (next ∈ s.cursors ∧ ended = .ok { s' with limited := true } ∨
                next ∉ s.cursors ∧
                  exportPages platform options sessionId read cancelled left
                    { s' with
                      cursors := next :: s'.cursors
                      cursor := some next
                      limited := s'.limited ||
                        maxPages - (left + 1) == maxPages - 1 } = .ok ended))) := by
  rw [exportPages] at h
  split at h
  · cases h
  split at h
  · cases h
  next page hread =>
    refine ⟨page, hread, ?_⟩
    split at h
    · cases h
    rcases exportPage_cases platform options page (maxPages - (left + 1) == maxPages - 1) s with
      ⟨s', hpage, hcut⟩ | ⟨s', hadvanced, ⟨hnext, hpage⟩ | ⟨next, hnext, ⟨hmem, hpage⟩ |
        ⟨hmem, hpage⟩⟩⟩
    · rw [hpage] at h
      exact .inl ⟨s', hcut, (Except.ok.inj h).symm⟩
    · rw [hpage] at h
      exact .inr ⟨s', hadvanced, .inl ⟨hnext, (Except.ok.inj h).symm⟩⟩
    · rw [hpage] at h
      exact .inr ⟨s', hadvanced, .inr ⟨next, hnext, .inl ⟨hmem, (Except.ok.inj h).symm⟩⟩⟩
    · rw [hpage] at h
      exact .inr ⟨s', hadvanced, .inr ⟨next, hnext, .inr ⟨hmem, h⟩⟩⟩

variable (sessionId read) in
/-- A record of a page which the reader gave to a request of the loop. -/
def WasRead (record : TranscriptRecord) : Prop :=
  ∃ index cursor page, read index (pageRequest sessionId cursor) = .ok page ∧
    record ∈ page.records

/-- The entries are those of the records which were read before the end or the cut. -/
theorem entries_exportPages {left : Nat} {ended : Except Excerpt Excerpt}
    (h : exportPages platform options sessionId read cancelled left s = .ok ended) :
    ∃ records, (∀ record ∈ records, WasRead sessionId read record) ∧
      (settle ended).entries =
        s.entries ++ entriesFrom platform options (s.records + 1) records := by
  induction left generalizing s with
  | zero =>
    cases h
    exact ⟨[], fun _ hmem ↦ absurd hmem List.not_mem_nil, (List.append_nil _).symm⟩
  | succ left ih =>
    obtain ⟨page, hread, ⟨s', hcut, rfl⟩ | ⟨s', hadvanced, ⟨-, rfl⟩ | ⟨next, -, ⟨-, rfl⟩ |
      ⟨-, hmore⟩⟩⟩⟩ := exportPages_turn h
    · obtain ⟨front, hfront, hentries⟩ := hcut.entries
      exact ⟨front, fun record hmem ↦ ⟨_, _, page, hread, hfront.subset hmem⟩, hentries⟩
    · exact ⟨page.records, fun record hmem ↦ ⟨_, _, page, hread, hmem⟩, hadvanced.entries⟩
    · exact ⟨page.records, fun record hmem ↦ ⟨_, _, page, hread, hmem⟩, hadvanced.entries⟩
    · obtain ⟨records, hrecords, hentries⟩ := ih hmore
      refine ⟨page.records ++ records, ?_, ?_⟩
      · intro record hmem
        exact (List.mem_append.mp hmem).elim (fun hpage ↦ ⟨_, _, page, hread, hpage⟩)
          (hrecords record)
      have hnumber : s'.records = s.records + page.records.length := hadvanced.count
      rw [hentries, hadvanced.entries, hnumber, entriesFrom_append, List.append_assoc,
        Nat.add_right_comm]

/-- A complete excerpt has the selected blocks of every page up to the end of the source, each of
them sound; no cursor was given twice, and no limit was met. -/
structure ReadWhole (platform : Platform) (options : TranscriptExportOptions) (sessionId : String)
    (read : Nat → TranscriptRequest → Except String TranscriptPage) (index : Nat)
    (s final : Excerpt)
    (pages : List TranscriptPage) : Prop where
  toEnd : ReadToEnd sessionId read index s.cursor pages
  length_le : index + pages.length ≤ maxPages
  gap : s.gap = false
  cursors : (pages.filterMap (·.nextCursor)).Nodup
  fresh : ∀ next ∈ pages.filterMap (·.nextCursor), next ∉ s.cursors
  sound : ∀ page ∈ pages, Sound page
  last : ∀ page ∈ pages.getLast?, page.sourceComplete = true
  limited : final.limited = false
  entries : final.entries =
    s.entries ++ entriesFrom platform options (s.records + 1) (pages.flatMap (·.records))

theorem readWhole_of_complete {left : Nat} {ended : Except Excerpt Excerpt}
    (hleft : left ≤ maxPages)
    (h : exportPages platform options sessionId read cancelled left s = .ok ended)
    (hstart : s.complete = false) (hcomplete : (settle ended).complete = true) :
    ∃ pages, ReadWhole platform options sessionId read (maxPages - left) s
      (settle ended) pages := by
  induction left generalizing s with
  | zero =>
    cases h
    simp [settle, hstart] at hcomplete
  | succ left ih =>
    obtain ⟨page, hread, ⟨s', hcut, rfl⟩ | ⟨s', hadvanced, ⟨hnext, rfl⟩ | ⟨next, hnext, ⟨-, rfl⟩ |
      ⟨hfresh, hmore⟩⟩⟩⟩ := exportPages_turn h
    · simp [settle, hcut.limited] at hcomplete
    · simp only [settle, Bool.and_eq_true, Bool.not_eq_true'] at hcomplete
      obtain ⟨⟨hsource, hgap⟩, hlimited⟩ := hcomplete
      rw [hadvanced.gap, Bool.or_assoc, Bool.or_eq_false_iff] at hgap
      have hnone : [page].filterMap (·.nextCursor) = [] := by
        rw [List.filterMap_cons_none hnext, List.filterMap_nil]
      refine ⟨[page], .last hread hnext, ?_, hgap.1, ?_, ?_, ?_, ?_, hlimited, ?_⟩
      · rw [List.length_singleton]
        omega
      · rw [hnone]
        exact List.nodup_nil
      · rw [hnone]
        exact fun _ hmem ↦ absurd hmem List.not_mem_nil
      · rw [List.forall_mem_singleton]
        exact sound_of_not_gap hgap.2
      · intro other hother
        obtain rfl := Option.some.inj hother
        exact hsource
      · rw [List.flatMap_singleton]
        exact hadvanced.entries
    · simp [settle] at hcomplete
    · obtain ⟨pages, hwhole⟩ := ih (by omega) hmore (hadvanced.complete.trans hstart)
      have hindex : maxPages - (left + 1) + 1 = maxPages - left := by omega
      have hgap := hwhole.gap
      simp only [hadvanced.gap, Bool.or_assoc, Bool.or_eq_false_iff] at hgap
      have hnumber : s'.records = s.records + page.records.length := hadvanced.count
      have hcursors : (page :: pages).filterMap (·.nextCursor) =
          next :: pages.filterMap (·.nextCursor) := List.filterMap_cons_some hnext
      have hafter : ∀ other ∈ pages.filterMap (·.nextCursor), other ∉ next :: s.cursors := by
        intro other hmem
        have hother := hwhole.fresh other hmem
        rwa [show s'.cursors = s.cursors from hadvanced.cursors] at hother
      refine ⟨page :: pages, .more hread hnext (hindex ▸ hwhole.toEnd), ?_, hgap.1, ?_, ?_, ?_, ?_,
        hwhole.limited, ?_⟩
      · have hlength := hwhole.length_le
        rw [List.length_cons]
        omega
      · rw [hcursors, List.nodup_cons]
        exact ⟨fun hmem ↦ hafter next hmem List.mem_cons_self, hwhole.cursors⟩
      · rw [hcursors, List.forall_mem_cons]
        exact ⟨hfresh, fun other hmem hold ↦ hafter other hmem (List.mem_cons_of_mem _ hold)⟩
      · rw [List.forall_mem_cons]
        exact ⟨sound_of_not_gap (Bool.or_eq_false_iff.mpr hgap.2), hwhole.sound⟩
      · have hne : pages ≠ [] := by
          rintro rfl
          cases hwhole.toEnd
        obtain ⟨other, rest, rfl⟩ := List.exists_cons_of_ne_nil hne
        rw [List.getLast?_cons_cons]
        exact hwhole.last
      · rw [hwhole.entries, hadvanced.entries, hnumber, List.flatMap_cons, entriesFrom_append,
          List.append_assoc, Nat.add_right_comm]

end AgentOdometer.TranscriptExport
