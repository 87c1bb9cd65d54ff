import AgentOdometer.History.ExclusionJournal
import Mathlib.Data.List.Induction

/-!
# The writer and the reader of the journal

Over every run of writes and crashes the journal holds the complete records and an incomplete
tail. Reading such a file succeeds exactly while its identities are within the reader's limit,
which the writer does not check for the record it appends.
-/

namespace AgentOdometer.History

open Transition

/-- A record as the writer writes it. -/
structure JournalCodec.Written (codec : JournalCodec) (record : ExclusionRecord) : Prop where
  readsBack : codec.ReadsBack record
  version : record.version = 1
  fits : (codec.encode record).length < maxRecordBytes

namespace JournalCodec

variable {codec : JournalCodec} {record : ExclusionRecord} {records : List ExclusionRecord}
  {tail file complete : List UInt8}

/-- The text of the records. -/
def text (codec : JournalCodec) (records : List ExclusionRecord) : List UInt8 :=
  records.flatMap codec.line

theorem Written.isLine (h : codec.Written record) : Lines.IsLine newline (codec.line record) :=
  ⟨codec.encode record, rfl, h.readsBack.oneLine⟩

theorem Written.length_line (h : codec.Written record) :
    (codec.line record).length ≤ maxRecordBytes := by
  have hfits := h.fits
  unfold line
  rw [List.length_append]
  exact hfits

/-! ### Reading -/

/-- The reader stops at an incomplete tail. -/
theorem readRecords_tail (n : Nat) (hmem : newline ∉ tail)
    (hlength : tail.length ≤ maxRecordBytes) :
    codec.readRecords n tail = .ok [] := by
  have htake : tail.take (maxRecordBytes + 1) = tail :=
    List.take_of_length_le (Nat.le_succ_of_le hlength)
  have hlast : tail.getLast? ≠ some newline := fun h ↦ hmem (List.mem_of_getLast? h)
  rw [readRecords]
  simp only [htake, Lines.readUntil_of_notMem hmem]
  rw [if_neg (Nat.not_lt.mpr hlength), if_pos hlast, ite_self]

/-- The reader takes one record and goes on behind it. -/
theorem readRecords_line_append (h : codec.Written record) (n : Nat) (rest : List UInt8) :
    codec.readRecords n (codec.line record ++ rest) =
      if maxIdentities < n + record.identities.length then .error .tooManyIdentities
      else (record :: ·) <$> codec.readRecords (n + record.identities.length) rest := by
  have hlength := h.length_line
  have htake : (codec.line record ++ rest).take (maxRecordBytes + 1) =
      codec.line record ++ rest.take (maxRecordBytes + 1 - (codec.line record).length) := by
    rw [List.take_append, List.take_of_length_le (Nat.le_succ_of_le hlength)]
  have hdecode : codec.decode (codec.line record) = some record := h.readsBack.roundTrip
  rw [readRecords]
  simp only [htake, Lines.readUntil_isLine_append h.isLine]
  rw [if_neg h.isLine.ne_nil, if_neg (Nat.not_lt.mpr hlength),
    if_neg (not_not.mpr h.isLine.getLast?), hdecode, List.drop_left]
  simp only [h.version, ne_eq, not_true, if_false]

/-- The reader returns the complete records, unless they have too many identities. -/
theorem readRecords_text_append (hrecords : ∀ record ∈ records, codec.Written record)
    (hmem : newline ∉ tail) (hlength : tail.length ≤ maxRecordBytes) (n : Nat)
    (hn : n ≤ maxIdentities) :
    codec.readRecords n (codec.text records ++ tail) =
      if n + Journal.identityCount records ≤ maxIdentities then .ok records
      else .error .tooManyIdentities := by
  induction records generalizing n with
  | nil =>
    exact (readRecords_tail n hmem hlength).trans (if_pos hn).symm
  | cons record records ih =>
    rw [List.forall_mem_cons] at hrecords
    have hcount : Journal.identityCount (record :: records) =
        record.identities.length + Journal.identityCount records := List.sum_cons
    change codec.readRecords n (codec.line record ++ codec.text records ++ tail) = _
    rw [List.append_assoc, readRecords_line_append hrecords.1, hcount]
    by_cases hmany : maxIdentities < n + record.identities.length
    · rw [if_pos hmany, if_neg (by omega)]
    · rw [if_neg hmany, ih hrecords.2 _ (Nat.not_lt.mp hmany), ← Nat.add_assoc]
      split <;> rfl

/-- What reading a journal returns. -/
theorem readExclusions_text_append (hrecords : ∀ record ∈ records, codec.Written record)
    (hmem : newline ∉ tail) (hlength : tail.length ≤ maxRecordBytes)
    (hfile : (codec.text records ++ tail).length ≤ maxJournalBytes) :
    codec.readExclusions (codec.text records ++ tail) =
      if Journal.identityCount records ≤ maxIdentities then .ok records
      else .error .tooManyIdentities := by
  unfold readExclusions
  rw [if_neg (Nat.not_lt.mpr hfile),
    readRecords_text_append hrecords hmem hlength 0 (Nat.zero_le _), Nat.zero_add]

/-! ### The incomplete tail -/

/-- The search finds the end of the records from every position behind it. -/
theorem searchTail_text_append {chunkBytes limit first : Nat} {hchunk : 0 < chunkBytes}
    (htext : complete = [] ∨ complete.getLast? = some newline) (hmem : newline ∉ tail)
    (hlength : tail.length ≤ limit) (hfirst : complete.length ≤ first)
    (hfile : first ≤ (complete ++ tail).length) :
    searchTail chunkBytes limit hchunk (complete ++ tail) first = .ok complete.length := by
  induction first using Nat.strongRecOn with
  | ind first ih =>
    rw [searchTail]
    by_cases hzero : first = 0
    · rw [if_pos hzero]
      congr 1
      omega
    · rw [if_neg hzero]
      simp only
      by_cases hinside : first - chunkBytes < complete.length
      · -- the chunk holds the line feed which ends the records
        obtain ⟨body, hbody⟩ : ∃ body, complete = body ++ [newline] := by
          rcases htext with rfl | hlast
          · exact absurd hinside (Nat.not_lt_zero _)
          · exact ⟨complete.dropLast, (List.dropLast_append_getLast? newline hlast).symm⟩
        have hlen : complete.length = body.length + 1 := by
          rw [hbody, List.length_append]
          rfl
        have hchunkEq : ((complete ++ tail).drop (first - chunkBytes)).take
            (first - (first - chunkBytes)) =
              body.drop (first - chunkBytes) ++ newline :: tail.take (first - complete.length) := by
          have hrest : first - (first - chunkBytes) - (body.length - (first - chunkBytes)) =
              first - complete.length + 1 := by omega
          rw [hbody, List.append_assoc, List.drop_append_of_le_length (by omega),
            List.take_append, List.take_of_length_le (by rw [List.length_drop]; omega),
            List.length_drop, hrest, ← hbody]
          rfl
        have hnone : newline ∉ tail.take (first - complete.length) :=
          fun h ↦ hmem (List.mem_of_mem_take h)
        rw [hchunkEq, Lines.lastIndex_append hnone, List.length_drop]
        simp only
        congr 1
        omega
      · have hnone : newline ∉ ((complete ++ tail).drop (first - chunkBytes)).take
            (first - (first - chunkBytes)) := by
          intro h
          have hdrop := List.mem_of_mem_take h
          rw [List.drop_append, List.drop_eq_nil_of_le (Nat.not_lt.mp hinside),
            List.nil_append] at hdrop
          exact hmem (List.mem_of_mem_drop hdrop)
        rw [Lines.lastIndex_of_notMem hnone]
        simp only
        rw [List.length_append] at hfile ⊢
        rw [if_neg (by omega)]
        apply ih
        · omega
        · omega
        · rw [List.length_append]
          omega

/-! ### Writing -/

/-- A file which holds complete records and the start of another one. -/
structure Holds (codec : JournalCodec) (records : List ExclusionRecord) (file : List UInt8) :
    Prop where
  written : ∀ record ∈ records, codec.Written record
  size : file.length ≤ maxJournalBytes
  split : ∃ tail, file = codec.text records ++ tail ∧ newline ∉ tail ∧
    tail.length < maxRecordBytes

theorem holds_empty : codec.Holds [] [] where
  written := fun _ h ↦ nomatch h
  size := Nat.zero_le _
  split := ⟨[], rfl, List.not_mem_nil, by decide⟩

theorem text_eq_nil_or_getLast? (hrecords : ∀ record ∈ records, codec.Written record) :
    codec.text records = [] ∨ (codec.text records).getLast? = some newline := by
  induction records using List.reverseRecOn with
  | nil => exact .inl rfl
  | append_singleton records record _ =>
    have hlast := (hrecords record
      (List.mem_append_right _ (List.mem_singleton_self record))).isLine
    right
    unfold text
    rw [List.flatMap_append, List.flatMap_singleton, List.getLast?_append, hlast.getLast?]
    rfl

/-- Reading a journal fails only for its number of identities. -/
theorem Holds.readExclusions (h : codec.Holds records file) :
    codec.readExclusions file =
      if Journal.identityCount records ≤ maxIdentities then .ok records
      else .error .tooManyIdentities := by
  obtain ⟨tail, rfl, hmem, hlength⟩ := h.split
  exact readExclusions_text_append h.written hmem (Nat.le_of_lt hlength) h.size

/-- The writer keeps the complete records. -/
theorem Holds.completePart (h : codec.Holds records file)
    (hcomplete : codec.completePart file = .ok complete) :
    complete = codec.text records := by
  obtain ⟨tail, rfl, hmem, hlength⟩ := h.split
  have hsearch : completeLength (codec.text records ++ tail) = .ok (codec.text records).length := by
    apply searchTail_text_append (text_eq_nil_or_getLast? h.written) hmem (Nat.le_of_lt hlength) _
      (Nat.le_refl _)
    rw [List.length_append]
    exact Nat.le_add_right _ _
  unfold JournalCodec.completePart at hcomplete
  split at hcomplete
  · cases hcomplete
  · rw [if_neg (Nat.not_lt.mpr h.size), hsearch] at hcomplete
    cases hcomplete
    exact List.take_left

/-- What the writer checks of the record it appends. -/
theorem appendable_eq_ok {raw : List UInt8} (h : codec.appendable complete record = .ok raw) :
    raw = codec.encode record ∧ raw.length < maxRecordBytes ∧
      complete.length + raw.length + 1 ≤ maxJournalBytes := by
  unfold appendable at h
  simp only at h
  split at h
  · cases h
  · split at h
    · cases h
    · cases h
      exact ⟨rfl, by omega, by omega⟩

/-- Cutting off the incomplete tail keeps the records. -/
theorem Holds.text (h : codec.Holds records file) : codec.Holds records (codec.text records) where
  written := h.written
  size := by
    obtain ⟨tail, rfl, -, -⟩ := h.split
    have hsize := h.size
    rw [List.length_append] at hsize
    omega
  split := ⟨[], (List.append_nil _).symm, List.not_mem_nil, by decide⟩

/-- An interrupted record is an incomplete tail. -/
theorem Holds.append_take {raw : List UInt8} (h : codec.Holds records file)
    (hread : codec.ReadsBack record) (hraw : codec.appendable (codec.text records) record = .ok raw)
    (n : Nat) : codec.Holds records (codec.text records ++ raw.take n) := by
  obtain ⟨rfl, hfits, hsize⟩ := appendable_eq_ok hraw
  have hle : ((codec.encode record).take n).length ≤ (codec.encode record).length :=
    List.length_take_le' n _
  refine ⟨h.written, ?_, _, rfl, fun hmem ↦ hread.oneLine (List.mem_of_mem_take hmem), by omega⟩
  rw [List.length_append]
  omega

/-- A complete record is one more of the journal. -/
theorem Holds.append_line {raw : List UInt8} (h : codec.Holds records file)
    (hread : codec.ReadsBack record) (hversion : record.version = 1)
    (hraw : codec.appendable (codec.text records) record = .ok raw) :
    codec.Holds (records ++ [record]) (codec.text records ++ raw ++ [newline]) := by
  obtain ⟨rfl, hfits, hsize⟩ := appendable_eq_ok hraw
  refine ⟨?_, ?_, [], ?_, List.not_mem_nil, by decide⟩
  · intro other hother
    rcases List.mem_append.mp hother with hother | hother
    · exact h.written other hother
    · rw [List.mem_singleton.mp hother]
      exact ⟨hread, hversion, hfits⟩
  · rw [List.length_append, List.length_append]
    exact hsize
  · unfold JournalCodec.text line
    rw [List.flatMap_append, List.flatMap_singleton, List.append_nil, List.append_assoc]

/-- What a call with identities to exclude leaves. -/
theorem Holds.writeExclusions {identities : List (String × String × String)}
    (h : codec.Holds records file) (hne : identities ≠ []) (purgedAtMs : Int) :
    (∃ e, codec.writeExclusions file identities purgedAtMs = (.error e, file)) ∨
      (∃ e, codec.writeExclusions file identities purgedAtMs = (.error e, codec.text records)) ∨
      ∃ raw, codec.appendable (codec.text records) ⟨1, purgedAtMs, identities⟩ = .ok raw ∧
        codec.writeExclusions file identities purgedAtMs =
          (.ok (), codec.text records ++ raw ++ [newline]) := by
  unfold JournalCodec.writeExclusions
  rw [if_neg hne]
  cases hcomplete : codec.completePart file with
  | error e => exact .inl ⟨e, rfl⟩
  | ok complete =>
    cases h.completePart hcomplete
    cases hraw : codec.appendable (codec.text records) ⟨1, purgedAtMs, identities⟩ with
    | error e => exact .inr (.inl ⟨e, by simp only [hraw]⟩)
    | ok raw => exact .inr (.inr ⟨raw, rfl, by simp only [hraw]⟩)

/-- What an interrupted call leaves. -/
theorem Holds.interruptedWrite {identities : List (String × String × String)} {purgedAtMs : Int}
    {written : Nat} (h : codec.Holds records file)
    (hread : codec.ReadsBack ⟨1, purgedAtMs, identities⟩) :
    codec.Holds records (codec.interruptedWrite file identities purgedAtMs written) := by
  unfold JournalCodec.interruptedWrite
  by_cases hempty : identities = []
  · rw [if_pos hempty]
    exact h
  · rw [if_neg hempty]
    cases hcomplete : codec.completePart file with
    | error e => exact h
    | ok complete =>
      cases h.completePart hcomplete
      cases hraw : codec.appendable (codec.text records) ⟨1, purgedAtMs, identities⟩ with
      | error e =>
        simp only [hraw]
        exact h.text
      | ok raw =>
        simp only [hraw]
        exact h.append_take hread hraw written

end JournalCodec

/-! ### Runs -/

namespace Journal

variable {codec : JournalCodec} {journal journal' : Journal}

/-- Every step keeps the complete records. -/
theorem holds_step {a : JournalStep} (h : codec.Holds journal.written journal.file)
    (hread : codec.ReadsBack a.record) (hstep : step codec journal a = some journal') :
    codec.Holds journal'.written journal'.file := by
  cases a with
  | write identities purgedAtMs =>
    simp only [step] at hstep
    by_cases hempty : identities = []
    · have hwrite : codec.writeExclusions journal.file identities purgedAtMs =
          (.ok (), journal.file) := if_pos hempty
      rw [hwrite] at hstep
      simp only [hempty, if_true] at hstep
      cases hstep
      exact h
    · rcases h.writeExclusions hempty purgedAtMs with
        ⟨e, hwrite⟩ | ⟨e, hwrite⟩ | ⟨raw, hraw, hwrite⟩
      · rw [hwrite] at hstep
        cases hstep
        exact h
      · rw [hwrite] at hstep
        cases hstep
        exact h.text
      · rw [hwrite] at hstep
        simp only [hempty, if_false] at hstep
        cases hstep
        exact h.append_line hread rfl hraw
  | crash identities purgedAtMs bytes =>
    cases hstep
    exact h.interruptedWrite hread

/-- After every run of writes and crashes the reader returns the complete records in their order
exactly while their identities are within its limit. -/
theorem read_agrees_iff
    (hreach : Reaches (step codec) (fun _ action ↦ codec.ReadsBack action.record) empty journal) :
    codec.readExclusions journal.file = .ok journal.written ↔
      identityCount journal.written ≤ maxIdentities := by
  have hholds : codec.Holds journal.written journal.file := by
    apply Reaches.invariant _ hreach JournalCodec.holds_empty
    intro s action t hs hread hstep
    exact holds_step hs hread hstep
  rw [hholds.readExclusions]
  split
  · next hcount => exact ⟨fun _ ↦ hcount, fun _ ↦ rfl⟩
  · next hcount => exact ⟨(fun h ↦ nomatch h), fun h ↦ absurd h hcount⟩

/-! ### A first record -/

/-- The first call of the writer, for a record within the size limits. -/
theorem writeExclusions_first {identities : List (String × String × String)} {purgedAtMs : Int}
    (hne : identities ≠ [])
    (hfits : (codec.encode ⟨1, purgedAtMs, identities⟩).length < maxRecordBytes) :
    codec.writeExclusions [] identities purgedAtMs =
      (.ok (), codec.text [⟨1, purgedAtMs, identities⟩]) := by
  have hcomplete : codec.completePart [] = .ok [] := by
    have hread : codec.readExclusions [] = .ok [] :=
      JournalCodec.holds_empty.readExclusions.trans (if_pos (Nat.zero_le _))
    have hlength : JournalCodec.completeLength [] = .ok 0 := by
      unfold JournalCodec.completeLength
      rw [JournalCodec.searchTail]
      exact if_pos rfl
    unfold JournalCodec.completePart
    rw [hread, hlength]
    exact if_neg (Nat.not_lt_zero _)
  have hraw : codec.appendable [] ⟨1, purgedAtMs, identities⟩ =
      .ok (codec.encode ⟨1, purgedAtMs, identities⟩) := by
    have hmax : maxRecordBytes ≤ maxJournalBytes := by decide
    unfold JournalCodec.appendable
    rw [if_neg (Nat.not_le.mpr hfits), if_neg]
    rw [List.length_nil]
    omega
  simp only [JournalCodec.writeExclusions, hcomplete, hraw, hne, if_false]
  simp [JournalCodec.text, JournalCodec.line]

theorem step_first {identities : List (String × String × String)} {purgedAtMs : Int}
    (hne : identities ≠ [])
    (hfits : (codec.encode ⟨1, purgedAtMs, identities⟩).length < maxRecordBytes) :
    step codec empty (.write identities purgedAtMs) =
      some ⟨codec.text [⟨1, purgedAtMs, identities⟩], [⟨1, purgedAtMs, identities⟩]⟩ := by
  simp only [step, empty, writeExclusions_first hne hfits, hne, if_false]
  rfl

end Journal

/-! ### Plain records -/

/-- The bytes of a text of plain ASCII characters. -/
def asciiBytes (text : String) : List UInt8 :=
  text.toList.map fun c ↦ c.toNat.toUInt8

/-- The JSON text of an identity of plain texts. -/
def identityBytes (identity : String × String × String) : List UInt8 :=
  asciiBytes "[\"" ++ asciiBytes identity.1 ++ asciiBytes "\",\"" ++ asciiBytes identity.2.1 ++
    asciiBytes "\",\"" ++ asciiBytes identity.2.2 ++ asciiBytes "\"]"

/-- Identities separated by commas. -/
def identitiesBytes : List (String × String × String) → List UInt8
  | [] => []
  | [identity] => identityBytes identity
  | identity :: other :: rest =>
      identityBytes identity ++ asciiBytes "," ++ identitiesBytes (other :: rest)

/-- The JSON text of a record whose identities are plain texts. -/
def plainBytes (record : ExclusionRecord) : List UInt8 :=
  asciiBytes "\x7b\"version\":" ++ asciiBytes (toString record.version) ++
    asciiBytes ",\"purged_at_ms\":" ++ asciiBytes (toString record.purgedAtMs) ++
    asciiBytes ",\"identities\":[" ++ identitiesBytes record.identities ++ asciiBytes "]\x7d"

/-- A codec which is used for one record of plain texts. -/
def plainCodec (record : ExclusionRecord) : JournalCodec where
  encode := plainBytes
  decode raw := if raw = plainBytes record ++ [newline] then some record else none

theorem readsBack_plainCodec {record : ExclusionRecord} (h : newline ∉ plainBytes record) :
    (plainCodec record).ReadsBack record where
  oneLine := h
  roundTrip := by
    simp only [plainCodec, if_true]

/-- A purge of one session. -/
def samplePurge : ExclusionRecord :=
  ⟨1, 0, [("codex:thread:a", "codex:thread:a", "first-0")]⟩

/-- A purge which is recorded, one which crashes in its record, and a third. -/
def interruptedPurges : List JournalStep :=
  [.write samplePurge.identities 0, .crash samplePurge.identities 0 7,
    .write samplePurge.identities 0]

/-- The record after the crash replaces what was left of the one before. -/
theorem Journal.read_agrees_iff_interruptedPurges :
    ∃ journal, run (step (plainCodec samplePurge)) empty interruptedPurges = some journal ∧
      journal.written = [samplePurge, samplePurge] ∧
      (plainCodec samplePurge).readExclusions journal.file = .ok journal.written := by
  have hread : (plainCodec samplePurge).ReadsBack samplePurge :=
    readsBack_plainCodec (by decide +kernel)
  have hwritten : (run (step (plainCodec samplePurge)) empty interruptedPurges).map
      Journal.written = some [samplePurge, samplePurge] := by
    decide +kernel
  obtain ⟨journal, hrun, hjournal⟩ := Option.map_eq_some_iff.mp hwritten
  have hrecord : ∀ action ∈ interruptedPurges, action.record = samplePurge := by
    decide +kernel
  have hreach : Reaches (step (plainCodec samplePurge))
      (fun _ action ↦ (plainCodec samplePurge).ReadsBack action.record) empty journal :=
    reaches_of_run_of_forall interruptedPurges
      (fun _ action haction ↦ (hrecord action haction).symm ▸ hread) hrun
  refine ⟨journal, hrun, hjournal, (read_agrees_iff hreach).mpr ?_⟩
  rw [hjournal]
  decide

/-- A purge of more sessions than the reader accepts. -/
def excessivePurge : ExclusionRecord :=
  ⟨1, 0, List.replicate (maxIdentities + 1) ("", "", "")⟩

theorem mem_identitiesBytes_replicate {n : Nat} {byte : UInt8}
    (h : byte ∈ identitiesBytes (List.replicate n ("", "", ""))) :
    byte ∈ identityBytes ("", "", "") ++ asciiBytes "," := by
  induction n with
  | zero => cases h
  | succ n ih =>
    cases n with
    | zero => exact List.mem_append_left _ h
    | succ n =>
      rcases List.mem_append.mp h with h | h
      · exact h
      · exact ih h

theorem length_identitiesBytes_replicate (n : Nat) :
    (identitiesBytes (List.replicate n ("", "", ""))).length ≤ 11 * n := by
  have hidentity : (identityBytes ("", "", "") ++ asciiBytes ",").length = 11 := by
    decide +kernel
  induction n with
  | zero => exact Nat.le_refl _
  | succ n ih =>
    cases n with
    | zero =>
      rw [List.length_append] at hidentity
      change (identityBytes ("", "", "")).length ≤ 11
      omega
    | succ n =>
      change (identityBytes ("", "", "") ++ asciiBytes "," ++
        identitiesBytes (List.replicate (n + 1) ("", "", ""))).length ≤ _
      rw [List.length_append, hidentity]
      omega

/-- One call which returns `Ok` makes the journal unreadable. -/
theorem Journal.excessive_purge_unreadable :
    ¬ ∀ (codec : JournalCodec) (journal : Journal),
      Reaches (step codec) (fun _ action ↦ codec.ReadsBack action.record) empty journal →
        codec.readExclusions journal.file = .ok journal.written := by
  intro h
  have hread : (plainCodec excessivePurge).ReadsBack excessivePurge := by
    apply readsBack_plainCodec
    intro hmem
    unfold plainBytes at hmem
    rw [List.mem_append, List.mem_append] at hmem
    rcases hmem with (hmem | hmem) | hmem
    · revert hmem
      decide +kernel
    · have hbyte := mem_identitiesBytes_replicate hmem
      revert hbyte
      decide +kernel
    · revert hmem
      decide +kernel
  have hfits : (plainBytes excessivePurge).length < maxRecordBytes := by
    have hidentities : (identitiesBytes excessivePurge.identities).length ≤
        11 * (maxIdentities + 1) := length_identitiesBytes_replicate _
    have hstart : (asciiBytes "\x7b\"version\":" ++ asciiBytes (toString excessivePurge.version) ++
        asciiBytes ",\"purged_at_ms\":" ++ asciiBytes (toString excessivePurge.purgedAtMs) ++
        asciiBytes ",\"identities\":[").length ≤ 100 := by decide +kernel
    have hend : (asciiBytes "]\x7d").length ≤ 100 := by decide +kernel
    have hlimits : 11 * (maxIdentities + 1) + 200 < maxRecordBytes := by decide
    unfold plainBytes
    rw [List.length_append, List.length_append]
    omega
  have hstep : step (plainCodec excessivePurge) empty (.write excessivePurge.identities 0) =
      some ⟨(plainCodec excessivePurge).text [excessivePurge], [excessivePurge]⟩ :=
    step_first (List.cons_ne_nil _ _) hfits
  have hreach : Reaches (step (plainCodec excessivePurge))
      (fun _ action ↦ (plainCodec excessivePurge).ReadsBack action.record) empty
      ⟨(plainCodec excessivePurge).text [excessivePurge], [excessivePurge]⟩ :=
    Reaches.tail (a := .write excessivePurge.identities 0) (Reaches.refl _) hread hstep
  have hholds : (plainCodec excessivePurge).Holds [excessivePurge]
      ((plainCodec excessivePurge).text [excessivePurge]) :=
    holds_step (a := .write excessivePurge.identities 0) JournalCodec.holds_empty hread hstep
  have hcount : ¬ identityCount [excessivePurge] ≤ maxIdentities := by
    unfold identityCount excessivePurge
    simp
  have hok := h _ _ hreach
  rw [hholds.readExclusions, if_neg hcount] at hok
  cases hok

end AgentOdometer.History
