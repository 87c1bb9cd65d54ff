import Mathlib.Data.List.Nodup
import AgentOdometer.Lib.TerminatedWords
import AgentOdometer.TranscriptExport.Entries

/-!
# Ids and links of the document

The anchors which `transcriptExport.ts:84,96` counts out are different from each other and from the
id of the index, and every link of `transcriptExport.ts:117–121` goes to one of them.
-/

namespace AgentOdometer.TranscriptExport

variable {platform : Platform} {options : TranscriptExportOptions}

/-- The id of an element. -/
def Piece.id? : Piece → Option JsString
  | .element _ id _ => some id
  | _ => none

/-- The target of a link. -/
def Piece.target? : Piece → Option JsString
  | .link target => some target
  | _ => none

/-- The ids of the elements of a document. -/
def ids (pieces : List Piece) : List JsString :=
  pieces.filterMap Piece.id?

/-- The targets of the links of a document. -/
def targets (pieces : List Piece) : List JsString :=
  pieces.filterMap Piece.target?

/-! ### Anchors -/

/-- What an id stands for: the index, a record, or a block of a record. -/
inductive Anchor where
  | index
  | record (number : Nat)
  | block (number blockIndex : Nat)

/-- The id of an anchor. -/
def Anchor.text : Anchor → JsString
  | .index => js "index"
  | .record number => recordAnchor number
  | .block number blockIndex => blockAnchor (recordAnchor number) blockIndex

theorem utf16_isDigit {c : Char} (h : c.isDigit = true) : utf16 c = [c.toNat.toUInt16] := by
  have hle : c.toNat ≤ 57 := by
    simp only [Char.isDigit, Bool.and_eq_true, decide_eq_true_eq] at h
    exact h.2
  exact if_pos (by omega)

/-- A number as it is written: a unit for each digit. -/
theorem js_toString (n : Nat) :
    js (toString n) = (Nat.toDigits 10 n).map fun c ↦ c.toNat.toUInt16 := by
  have hdigits : ∀ c ∈ Nat.toDigits 10 n, utf16 c = [c.toNat.toUInt16] := fun c hc ↦
    utf16_isDigit (Nat.isDigit_of_mem_toDigits (by decide) (by decide) hc)
  rw [js, show (toString n).toList = Nat.toDigits 10 n from Nat.toList_repr, List.map_eq_flatMap,
    List.flatMap_congr hdigits]

theorem unit_isDigit {n : Nat} {unit : UInt16} (h : unit ∈ js (toString n)) :
    48 ≤ unit ∧ unit ≤ 57 := by
  rw [js_toString] at h
  obtain ⟨c, hc, rfl⟩ := List.mem_map.mp h
  have hdigit := Nat.isDigit_of_mem_toDigits (by decide) (by decide) hc
  simp only [Char.isDigit, Bool.and_eq_true, decide_eq_true_eq] at hdigit
  have hlow : 48 ≤ c.toNat := hdigit.1
  have hhigh : c.toNat ≤ 57 := hdigit.2
  have hunit : c.toNat.toUInt16.toNat = c.toNat := Nat.mod_eq_of_lt (by omega)
  rw [UInt16.le_iff_toNat_le, UInt16.le_iff_toNat_le, hunit]
  exact ⟨hlow, hhigh⟩

theorem hyphen_notMem_toString (n : Nat) : (45 : UInt16) ∉ js (toString n) := fun h ↦
  absurd (unit_isDigit h).1 (by decide)

theorem js_toString_inj {m n : Nat} (h : js (toString m) = js (toString n)) : m = n := by
  have hinj : ∀ c ∈ Nat.toDigits 10 m, ∀ d ∈ Nat.toDigits 10 n,
      c.toNat.toUInt16 = d.toNat.toUInt16 → c = d := by
    intro c hc d hd heq
    have hsmall : ∀ {n : Nat} {c : Char}, c ∈ Nat.toDigits 10 n → c.toNat < 2 ^ 16 := by
      intro n c hc
      have hdigit := Nat.isDigit_of_mem_toDigits (by decide) (by decide) hc
      simp only [Char.isDigit, Bool.and_eq_true, decide_eq_true_eq] at hdigit
      exact Nat.lt_of_le_of_lt hdigit.2 (by decide)
    have hnat := congrArg UInt16.toNat heq
    have hc' : c.toNat.toUInt16.toNat = c.toNat := Nat.mod_eq_of_lt (hsmall hc)
    have hd' : d.toNat.toUInt16.toNat = d.toNat := Nat.mod_eq_of_lt (hsmall hd)
    rw [hc', hd'] at hnat
    exact Char.toNat_inj.mp hnat
  have hdigits : Nat.toDigits 10 m = Nat.toDigits 10 n := by
    rw [js_toString, js_toString] at h
    generalize Nat.toDigits 10 m = front at h hinj
    generalize Nat.toDigits 10 n = back at h hinj
    induction front generalizing back with
    | nil => exact (List.map_eq_nil_iff.mp h.symm).symm
    | cons c front ih =>
      cases back with
      | nil => cases h
      | cons d back =>
        rw [List.map_cons, List.map_cons, List.cons.injEq] at h
        have hhead := hinj c List.mem_cons_self d List.mem_cons_self h.1
        have htail := ih back h.2 fun c hc d hd ↦
          hinj c (List.mem_cons_of_mem _ hc) d (List.mem_cons_of_mem _ hd)
        rw [hhead, htail]
  have hvalue := congrArg (fun digits ↦ Nat.ofDigitChars 10 digits 0) hdigits
  simpa using hvalue

theorem blockAnchor_eq (number blockIndex : Nat) :
    blockAnchor (recordAnchor number) blockIndex =
      js "record-" ++
        (js (toString number) ++ 45 :: (js "block-" ++ js (toString blockIndex))) := by
  have hword : js "-block-" = 45 :: js "block-" := by decide
  rw [blockAnchor, recordAnchor, hword, List.append_assoc, List.append_assoc]
  rfl

/-- Different anchors have different ids. -/
theorem Anchor.text_injective : Function.Injective Anchor.text := by
  have hindex : ∀ rest : JsString, js "index" ≠ js "record-" ++ rest := by
    intro rest h
    have hhead : (js "index").head? = (js "record-").head? := by
      rw [h]
      rfl
    exact absurd hhead (by decide)
  have hrecord : ∀ number other blockIndex,
      recordAnchor number ≠ blockAnchor (recordAnchor other) blockIndex := by
    intro number other blockIndex h
    rw [blockAnchor_eq, recordAnchor, List.append_right_inj] at h
    apply hyphen_notMem_toString number
    rw [h]
    exact List.mem_append_right _ List.mem_cons_self
  intro anchor other h
  cases anchor with
  | index =>
    cases other with
    | index => rfl
    | record number => exact absurd h (hindex _)
    | block number blockIndex =>
      exact absurd (h.trans (blockAnchor_eq number blockIndex)) (hindex _)
  | record number =>
    cases other with
    | index => exact absurd h.symm (hindex _)
    | record other => rw [js_toString_inj (List.append_cancel_left h)]
    | block other blockIndex => exact absurd h (hrecord number other blockIndex)
  | block number blockIndex =>
    cases other with
    | index => exact absurd (h.symm.trans (blockAnchor_eq number blockIndex)) (hindex _)
    | record other => exact absurd h.symm (hrecord other number blockIndex)
    | block other otherIndex =>
      have heq : blockAnchor (recordAnchor number) blockIndex =
        blockAnchor (recordAnchor other) otherIndex := h
      rw [blockAnchor_eq, blockAnchor_eq, List.append_right_inj] at heq
      obtain ⟨hnumber, -⟩ := TerminatedWords.word_of_prefix (hyphen_notMem_toString number)
        (hyphen_notMem_toString other) ⟨[], (List.append_nil _).trans heq⟩
      rw [hnumber, List.append_right_inj, List.cons.injEq, List.append_right_inj] at heq
      rw [js_toString_inj hnumber, js_toString_inj heq.2]

/-! ### Ids -/

/-- The ids of an entry: its own, and those of its blocks. -/
def Entry.anchors (entry : Entry) : List JsString :=
  entry.anchor :: entry.blocks.map (·.anchor)

variable (platform options) in
/-- The selected blocks have the anchors of some of the indices from the first one on, in order. -/
theorem exists_indices (role anchor : JsString) (blockIndex : Nat) (rest : List TranscriptBlock) :
    ∃ indices : List Nat, indices.Nodup ∧ (∀ index ∈ indices, blockIndex ≤ index) ∧
      (selectedBlocks platform options role anchor blockIndex rest).map (·.anchor) =
        indices.map (blockAnchor anchor) := by
  induction rest generalizing blockIndex with
  | nil => exact ⟨[], List.nodup_nil, fun _ h ↦ absurd h List.not_mem_nil, rfl⟩
  | cons block rest ih =>
    obtain ⟨indices, hnodup, hle, hanchors⟩ := ih (blockIndex + 1)
    rw [selectedBlocks]
    split
    · refine ⟨blockIndex :: indices, List.nodup_cons.mpr ⟨fun hmem ↦ ?_, hnodup⟩, ?_, ?_⟩
      · exact absurd (hle blockIndex hmem) (Nat.not_succ_le_self _)
      · rw [List.forall_mem_cons]
        exact ⟨Nat.le_refl _, fun index hindex ↦ Nat.le_of_succ_le (hle index hindex)⟩
      · rw [List.map_cons, List.map_cons, hanchors]
        rfl
    · exact ⟨indices, hnodup, fun index hindex ↦ Nat.le_of_succ_le (hle index hindex), hanchors⟩

/-- The number of the record which an anchor belongs to. -/
def Anchor.number? : Anchor → Option Nat
  | .index => none
  | .record number => some number
  | .block number _ => some number

variable (platform options) in
/-- The ids of the entries stand for different anchors, of the records from the first one on. -/
theorem exists_anchors (number : Nat) (records : List TranscriptRecord) :
    ∃ anchors : List Anchor, anchors.Nodup ∧
      (∀ anchor ∈ anchors, ∃ n ∈ anchor.number?, number ≤ n) ∧
      (entriesFrom platform options number records).flatMap Entry.anchors =
        anchors.map Anchor.text := by
  induction records generalizing number with
  | nil => exact ⟨[], List.nodup_nil, fun _ h ↦ absurd h List.not_mem_nil, rfl⟩
  | cons record records ih =>
    obtain ⟨anchors, hnodup, hle, hanchors⟩ := ih (number + 1)
    have hlater : ∀ anchor ∈ anchors, ∃ n ∈ anchor.number?, number ≤ n := by
      intro anchor hmem
      obtain ⟨n, hn, hnumber⟩ := hle anchor hmem
      exact ⟨n, hn, Nat.le_of_succ_le hnumber⟩
    have hfresh : ∀ anchor : Anchor, anchor.number? = some number → anchor ∉ anchors := by
      intro anchor hanchor hmem
      obtain ⟨n, hn, hnumber⟩ := hle anchor hmem
      obtain rfl : number = n := Option.some.inj (hanchor.symm.trans hn)
      exact absurd hnumber (Nat.not_succ_le_self _)
    rw [entriesFrom]
    split
    · exact ⟨anchors, hnodup, hlater, hanchors⟩
    · obtain ⟨indices, hindices, -, hblocks⟩ := exists_indices platform options
        (roleOf record.presentation) (recordAnchor number) 0
        ((record.presentation.map (·.blocks)).getD [])
      have hinj : Function.Injective (Anchor.block number) := fun _ _ h ↦ (Anchor.block.inj h).2
      refine ⟨.record number :: (indices.map (.block number) ++ anchors), ?_, ?_, ?_⟩
      · rw [List.nodup_cons, List.nodup_append, List.mem_append, not_or]
        refine ⟨⟨fun hmem ↦ ?_, hfresh (.record number) rfl⟩, List.Nodup.map hinj hindices, hnodup,
          ?_⟩
        · obtain ⟨index, -, hblock⟩ := List.mem_map.mp hmem
          cases hblock
        · intro anchor hblock other hother heq
          obtain ⟨index, -, rfl⟩ := List.mem_map.mp hblock
          exact hfresh _ rfl (heq ▸ hother)
      · rw [List.forall_mem_cons]
        refine ⟨⟨number, rfl, Nat.le_refl _⟩, fun anchor hmem ↦ ?_⟩
        rcases List.mem_append.mp hmem with hblock | hmem
        · obtain ⟨index, -, rfl⟩ := List.mem_map.mp hblock
          exact ⟨number, rfl, Nat.le_refl _⟩
        · exact hlater anchor hmem
      · rw [List.flatMap_cons, hanchors, List.map_cons, List.map_append, List.map_map]
        have hentry : (entryOf platform options number record).anchors =
            recordAnchor number :: indices.map (blockAnchor (recordAnchor number)) :=
          congrArg (recordAnchor number :: ·) hblocks
        rw [hentry]
        rfl

theorem ids_append (front back : List Piece) : ids (front ++ back) = ids front ++ ids back :=
  List.filterMap_append

theorem ids_flatMap {α : Type} (f : α → List Piece) (items : List α) :
    ids (items.flatMap f) = items.flatMap fun item ↦ ids (f item) :=
  List.filterMap_flatMap

theorem targets_append (front back : List Piece) :
    targets (front ++ back) = targets front ++ targets back :=
  List.filterMap_append

theorem targets_flatMap {α : Type} (f : α → List Piece) (items : List α) :
    targets (items.flatMap f) = items.flatMap fun item ↦ targets (f item) :=
  List.filterMap_flatMap

theorem ids_sectionPieces (entries : List Entry) (block : EntryBlock) :
    ids (sectionPieces entries block) = [block.anchor] := by
  unfold sectionPieces
  cases peerOf entries block <;> rfl

theorem targets_sectionPieces (entries : List Entry) (block : EntryBlock) :
    targets (sectionPieces entries block) = (peerOf entries block).toList := by
  unfold sectionPieces
  cases peerOf entries block <;> rfl

theorem ids_articlePieces (entries : List Entry) (entry : Entry) :
    ids (articlePieces entries entry) = entry.anchors := by
  have htime : ids (if entry.time = [] then []
      else [.markup "<p>", .text entry.time, .markup "</p>"]) = [] := by
    split <;> rfl
  have hsections : ids (entry.blocks.flatMap (sectionPieces entries)) =
      entry.blocks.map (·.anchor) := by
    rw [ids_flatMap, List.map_eq_flatMap]
    exact List.flatMap_congr fun block _ ↦ ids_sectionPieces entries block
  rw [articlePieces, ids_append, ids_append, ids_append, htime, hsections, List.append_nil]
  show [entry.anchor] ++ entry.blocks.map (·.anchor) ++ [] = _
  rw [List.append_nil]
  rfl

theorem targets_articlePieces (entries : List Entry) (entry : Entry) :
    targets (articlePieces entries entry) =
      (entry.blocks.flatMap fun block ↦ (peerOf entries block).toList) ++ [js "index"] := by
  have htime : targets (if entry.time = [] then []
      else [.markup "<p>", .text entry.time, .markup "</p>"]) = [] := by
    split <;> rfl
  have hsections : targets (entry.blocks.flatMap (sectionPieces entries)) =
      entry.blocks.flatMap fun block ↦ (peerOf entries block).toList := by
    rw [targets_flatMap]
    exact List.flatMap_congr fun block _ ↦ targets_sectionPieces entries block
  rw [articlePieces, targets_append, targets_append, targets_append, htime, hsections]
  rfl

/-- The ids of a document: the index, and those of the entries. -/
theorem ids_document (s : Excerpt) :
    ids (document options s) = js "index" :: s.entries.flatMap Entry.anchors := by
  have hindex : ids (s.entries.flatMap indexPieces) = [] := by
    rw [ids_flatMap, List.flatMap_eq_nil_iff]
    exact fun _ _ ↦ rfl
  have hcontent : ids (if s.entries = [] then
      [.markup "<p>", .text (js "No selected content is available."), .markup "</p>"]
      else s.entries.flatMap (articlePieces s.entries)) = s.entries.flatMap Entry.anchors := by
    split
    · next hnone =>
      rw [hnone]
      rfl
    · rw [ids_flatMap]
      exact List.flatMap_congr fun entry _ ↦ ids_articlePieces s.entries entry
  rw [document, ids_append, ids_append, ids_append, ids_append, hindex, hcontent]
  show [js "index"] ++ [] ++ [] ++ s.entries.flatMap Entry.anchors ++ [] = _
  rw [List.append_nil, List.append_nil, List.append_nil]
  rfl

/-- The ids of the document of some entries are different from each other. -/
theorem nodup_ids {s : Excerpt} {number : Nat} {records : List TranscriptRecord}
    (h : s.entries = entriesFrom platform options number records) :
    (ids (document options s)).Nodup := by
  obtain ⟨anchors, hnodup, hnumbers, hanchors⟩ := exists_anchors platform options number
    records
  have hindex : Anchor.index ∉ anchors := by
    intro hmem
    obtain ⟨n, hn, -⟩ := hnumbers .index hmem
    cases hn
  rw [ids_document, h, hanchors]
  exact List.Nodup.map Anchor.text_injective (List.nodup_cons.mpr ⟨hindex, hnodup⟩)

/-! ### Links -/

/-- The anchor of a call id is one of a block. -/
theorem exists_block_of_lookup {isKind : JsString → Bool} {entries : List Entry}
    {call anchor : JsString} (h : (anchorsOf isKind entries).lookup call = some anchor) :
    ∃ entry ∈ entries, ∃ block ∈ entry.blocks, block.anchor = anchor := by
  have hfold : ∀ (blocks : List EntryBlock) (anchors : List (JsString × JsString)),
      ∀ pair ∈ blocks.foldl (addAnchor isKind) anchors,
        pair ∈ anchors ∨ ∃ block ∈ blocks, block.anchor = pair.2 := by
    intro blocks
    induction blocks with
    | nil => exact fun anchors pair hmem ↦ .inl hmem
    | cons block blocks ih =>
      intro anchors pair hmem
      rcases ih _ pair hmem with hmem | ⟨other, hother, hanchor⟩
      · unfold addAnchor at hmem
        split at hmem
        · exact .inl hmem
        split at hmem
        · rcases List.mem_cons.mp hmem with rfl | hmem
          · exact .inr ⟨block, List.mem_cons_self, rfl⟩
          · exact .inl hmem
        · exact .inl hmem
      · exact .inr ⟨other, List.mem_cons_of_mem _ hother, hanchor⟩
  have hmem : (call, anchor) ∈ anchorsOf isKind entries := by
    revert h
    generalize anchorsOf isKind entries = anchors
    intro h
    obtain ⟨front, back, rfl, -⟩ := List.lookup_eq_some_iff.mp h
    exact List.mem_append_right _ List.mem_cons_self
  rcases hfold _ _ _ hmem with hnil | ⟨block, hblock, hanchor⟩
  · cases hnil
  · obtain ⟨entry, hentry, hblock⟩ := List.mem_flatMap.mp hblock
    exact ⟨entry, hentry, block, hblock, hanchor⟩

theorem exists_block_of_peerOf {entries : List Entry} {block : EntryBlock} {peer : JsString}
    (h : peerOf entries block = some peer) :
    ∃ entry ∈ entries, ∃ other ∈ entry.blocks, other.anchor = peer := by
  unfold peerOf at h
  split at h
  · cases h
  split at h
  · cases h
  split at h
  · exact exists_block_of_lookup h
  · exact exists_block_of_lookup h

/-- Every link goes to an element of the document. -/
theorem mem_ids_of_mem_targets {s : Excerpt} {target : JsString}
    (h : target ∈ targets (document options s)) : target ∈ ids (document options s) := by
  have hindex : js "index" ∈ ids (document options s) := by
    rw [ids_document]
    exact List.mem_cons_self
  have hentry : ∀ entry ∈ s.entries, ∀ anchor ∈ entry.anchors,
      anchor ∈ ids (document options s) := by
    intro entry hentry anchor hanchor
    rw [ids_document]
    exact List.mem_cons_of_mem _ (List.mem_flatMap.mpr ⟨entry, hentry, hanchor⟩)
  have hitems : ∀ target ∈ targets (s.entries.flatMap indexPieces),
      target ∈ ids (document options s) := by
    intro target hmem
    rw [targets_flatMap] at hmem
    obtain ⟨entry, hin, htarget⟩ := List.mem_flatMap.mp hmem
    obtain rfl : target = entry.anchor := List.mem_singleton.mp htarget
    exact hentry entry hin entry.anchor List.mem_cons_self
  have hcontent : ∀ target ∈ targets (s.entries.flatMap (articlePieces s.entries)),
      target ∈ ids (document options s) := by
    intro target hmem
    rw [targets_flatMap] at hmem
    obtain ⟨entry, -, htarget⟩ := List.mem_flatMap.mp hmem
    rw [targets_articlePieces] at htarget
    rcases List.mem_append.mp htarget with hpeer | hlast
    · obtain ⟨block, -, hpeer⟩ := List.mem_flatMap.mp hpeer
      obtain ⟨other, hother, found, hfound, rfl⟩ :=
        exists_block_of_peerOf (Option.mem_toList.mp hpeer)
      exact hentry other hother found.anchor
        (List.mem_cons_of_mem _ (List.mem_map.mpr ⟨found, hfound, rfl⟩))
    · obtain rfl := List.mem_singleton.mp hlast
      exact hindex
  rw [document, targets_append, targets_append, targets_append, targets_append] at h
  rcases List.mem_append.mp h with h | h
  · rcases List.mem_append.mp h with h | h
    · rcases List.mem_append.mp h with h | h
      · rcases List.mem_append.mp h with h | h
        · cases h
        · exact hitems target h
      · cases h
    · split at h
      · cases h
      · exact hcontent target h
  · cases h

end AgentOdometer.TranscriptExport
