import AgentOdometer.Base.Text
import AgentOdometer.Base.Json
import Mathlib.Algebra.Order.BigOperators.Group.List
import Mathlib.Algebra.Order.Ring.Nat

/-!
# The action journal

The write-once events of an action and what makes a journal valid (`action_executor.rs:22–115`,
`236–361`). A valid journal is its prepared record and the events which are present.
-/

namespace AgentOdometer.Action

/-- The bytes of a file. -/
abbrev Bytes := List UInt8

def maxTargetBytes : Nat :=
  128 * 1024

def maxJournalBytes : Nat :=
  4096

def journalVersion : Nat :=
  1

def actionVersion : Nat :=
  1

/-- The events of an action. Follows `action_executor.rs:26–33`. -/
inductive Suffix where
  | prepared
  | applied
  | aborted
  | conflict
  | undoConflict
  | undone
deriving Repr, DecidableEq

/-- `JOURNAL_SUFFIXES`. -/
def journalSuffixes : List Suffix :=
  [.prepared, .applied, .aborted, .conflict, .undoConflict, .undone]

/-- Follows `action_executor.rs:37–44`. -/
inductive ActionError where
  | conflict
  | unsafeTarget
  | invalidJournal
  | interrupted
  | io
deriving Repr, DecidableEq

/-- A file and its journal directory. Follows `action_executor.rs:64–69`. -/
structure ResolvedTarget where
  file : String
  journal : String
  redactedIdentity : String
deriving Repr, DecidableEq

/-- Follows `action_executor.rs:87–92`. -/
inductive JournalResult where
  | prepared
  | applied
  | aborted
  | conflict
deriving Repr, DecidableEq

/-- Follows `action_executor.rs:96–101`. -/
inductive UndoState where
  | notApplied
  | available
  | undone
  | blockedExternalEdit
deriving Repr, DecidableEq

/-- Follows `action_executor.rs:73–83`. -/
structure JournalRecord where
  version : Nat
  actionId : String
  actionVersion : Nat
  redactedTarget : String
  sourceRevision : String
  beforeSha256 : String
  afterSha256 : String
  result : JournalResult
  undoState : UndoState
deriving Repr, DecidableEq

/-- Follows `action_executor.rs:104–108`. -/
inductive Recovery where
  | aborted
  | applied
  | undone
deriving Repr, DecidableEq

/-- Follows `action_executor.rs:111–115`. -/
inductive InterruptAt where
  | never
  | afterPrepared
  | afterTargetReplace
deriving Repr, DecidableEq

/-- `u8::is_ascii_hexdigit`. -/
def isHexDigit (c : Char) : Bool :=
  c.isDigit || ('a' ≤ c && c ≤ 'f') || ('A' ≤ c && c ≤ 'F')

/-- `valid_id`, `action_executor.rs:236–244`. -/
def validId (id : String) : Bool :=
  id.toList.length == 58 && id.toList.zipIdx.all fun (c, index) ↦
    if index = 32 ∨ index = 41 then c == '-' else isHexDigit c

/-- `canonical_hash`, `action_executor.rs:277–282`. -/
def canonicalHash (value : String) : Bool :=
  value.toList.length == 64 && value.toList.all fun c ↦ c.isDigit || ('a' ≤ c && c ≤ 'f')

/-- What a revision and a redacted identity must be: not empty, short and without control
characters. -/
def isPlain (text : String) : Bool :=
  !text.isEmpty && text.utf8ByteSize ≤ 128 && !text.toList.any Text.isControl

/-- What an event says of its action. Follows `action_executor.rs:290–297`. -/
def Suffix.expected : Suffix → JournalResult × UndoState
  | .prepared => (.prepared, .notApplied)
  | .applied => (.applied, .available)
  | .aborted => (.aborted, .notApplied)
  | .conflict => (.conflict, .blockedExternalEdit)
  | .undoConflict => (.conflict, .blockedExternalEdit)
  | .undone => (.applied, .undone)

/-- `validate_event`, `action_executor.rs:284–313`. -/
def validateEvent (target : ResolvedTarget) (id : String) (suffix : Suffix)
    (record : JournalRecord) : Except ActionError Unit :=
  if record.version ≠ journalVersion ∨ record.actionVersion ≠ actionVersion ∨
      record.actionId ≠ id ∨ !validId id ∨ record.redactedTarget ≠ target.redactedIdentity ∨
      !isPlain record.sourceRevision ∨ !canonicalHash record.beforeSha256 ∨
      !canonicalHash record.afterSha256 ∨
      (record.result, record.undoState) ≠ suffix.expected then
    .error .invalidJournal
  else .ok ()

/-- The events which are present. -/
abbrev Events := Suffix → Option JournalRecord

namespace Events

/-- No event is present. -/
def none : Events :=
  fun _ ↦ .none

/-- `contains_key`. -/
def has (events : Events) (suffix : Suffix) : Bool :=
  (events suffix).isSome

/-- `is_empty`. -/
def isEmpty (events : Events) : Bool :=
  journalSuffixes.all fun suffix ↦ !events.has suffix

/-- `insert`. -/
def insert (events : Events) (suffix : Suffix) (record : JournalRecord) : Events :=
  Function.update events suffix (some record)

end Events

/-- The records of one action. Follows `action_executor.rs:340–349`. -/
def sameAction (prepared record : JournalRecord) : Bool :=
  record.version == prepared.version && record.actionVersion == prepared.actionVersion &&
    record.actionId == prepared.actionId && record.redactedTarget == prepared.redactedTarget &&
    record.sourceRevision == prepared.sourceRevision &&
    record.beforeSha256 == prepared.beforeSha256 && record.afterSha256 == prepared.afterSha256

/-- `validate_journal`, `action_executor.rs:338–361`. -/
def validateJournal (events : Events) : Except ActionError Unit :=
  match events .prepared with
  | none => .error .invalidJournal
  | some prepared =>
      if journalSuffixes.any fun suffix ↦ (events suffix).any fun record ↦
          !sameAction prepared record then
        .error .invalidJournal
      else if events.has .aborted && events.has .conflict ||
          events.has .applied && (events.has .aborted || events.has .conflict) ||
          !events.has .applied && (events.has .undoConflict || events.has .undone) then
        .error .invalidJournal
      else .ok ()

/-! ### Texts -/

def JournalResult.text : JournalResult → String
  | .prepared => "prepared"
  | .applied => "applied"
  | .aborted => "aborted"
  | .conflict => "conflict"

def UndoState.text : UndoState → String
  | .notApplied => "not_applied"
  | .available => "available"
  | .undone => "undone"
  | .blockedExternalEdit => "blocked_external_edit"

/-- The texts which make up a record in JSON. -/
def JournalRecord.parts (record : JournalRecord) : List String :=
  ["\x7b\"version\":", toString record.version,
    ",\"action_id\":", Report.stringText record.actionId,
    ",\"action_version\":", toString record.actionVersion,
    ",\"redacted_target\":", Report.stringText record.redactedTarget,
    ",\"source_revision\":", Report.stringText record.sourceRevision,
    ",\"before_sha256\":", Report.stringText record.beforeSha256,
    ",\"after_sha256\":", Report.stringText record.afterSha256,
    ",\"result\":", Report.stringText record.result.text,
    ",\"undo_state\":", Report.stringText record.undoState.text, "\x7d"]

/-- `serde_json::to_vec` of a record. -/
def JournalRecord.text (record : JournalRecord) : String :=
  String.join record.parts

theorem utf8ByteSize_ofList_cons (c : Char) (cs : List Char) :
    (String.ofList (c :: cs)).utf8ByteSize = c.utf8Size + (String.ofList cs).utf8ByteSize := by
  rw [← List.singleton_append, String.ofList_append, String.utf8ByteSize_append,
    ← String.utf8ByteSize_singleton]
  rfl

theorem utf8ByteSize_escapeChar {c : Char} (hc : Text.isControl c = false) :
    (String.ofList (Report.escapeChar c)).utf8ByteSize ≤ 2 * c.utf8Size := by
  have hcontrol : 32 ≤ c.toNat := by
    simp only [Text.isControl, Bool.or_eq_false_iff, decide_eq_false_iff_not] at hc
    omega
  have hpos := c.utf8Size_pos
  unfold Report.escapeChar
  split
  · subst_vars
    decide
  split
  · subst_vars
    decide
  iterate 5
    split
    · subst_vars
      first
        | omega
        | exact absurd hcontrol (by decide)
  split
  · omega
  · rw [utf8ByteSize_ofList_cons, String.ofList_nil, String.utf8ByteSize_empty]
    omega

/-- A text without control characters is at most twice as long in JSON. -/
theorem utf8ByteSize_stringText {s : String} (hs : s.toList.any Text.isControl = false) :
    (Report.stringText s).utf8ByteSize ≤ 2 * s.utf8ByteSize + 2 := by
  have hescape : ∀ cs : List Char, cs.any Text.isControl = false →
      (String.ofList (cs.flatMap Report.escapeChar)).utf8ByteSize ≤
        2 * (String.ofList cs).utf8ByteSize := by
    intro cs hcs
    induction cs with
    | nil => simp
    | cons c cs ih =>
      rw [List.any_cons, Bool.or_eq_false_iff] at hcs
      have hc := utf8ByteSize_escapeChar hcs.1
      have hrest := ih hcs.2
      rw [List.flatMap_cons, String.ofList_append, String.utf8ByteSize_append,
        utf8ByteSize_ofList_cons]
      omega
  have hs := hescape s.toList hs
  rw [String.ofList_toList] at hs
  rw [Report.stringText, List.cons_append, utf8ByteSize_ofList_cons, String.ofList_append,
    String.utf8ByteSize_append]
  have hquote : ('"' : Char).utf8Size = 1 := by decide
  have hend : (String.ofList ['"']).utf8ByteSize = 1 := by decide
  omega

theorem isControl_of_isHexDigit {c : Char} (hc : isHexDigit c = true) :
    Text.isControl c = false := by
  simp only [isHexDigit, Char.isDigit, Bool.or_eq_true, Bool.and_eq_true, decide_eq_true_eq,
    ge_iff_le, Char.le_def, UInt32.le_iff_toNat_le] at hc
  simp only [Text.isControl, Bool.or_eq_false_iff, Bool.and_eq_false_iff,
    decide_eq_false_iff_not, Char.toNat]
  have h₀ : ('0' : Char).val.toNat = 48 := rfl
  have h₉ : ('9' : Char).val.toNat = 57 := rfl
  have ha : ('a' : Char).val.toNat = 97 := rfl
  have hf : ('f' : Char).val.toNat = 102 := rfl
  have hA : ('A' : Char).val.toNat = 65 := rfl
  have hF : ('F' : Char).val.toNat = 70 := rfl
  omega

/-- A text of hexadecimal digits and hyphens is short in JSON. -/
theorem utf8ByteSize_stringText_of_hex {s : String} {n : Nat} (hlength : s.toList.length = n)
    (hs : ∀ c ∈ s.toList, isHexDigit c = true ∨ c = '-') :
    (Report.stringText s).utf8ByteSize ≤ 8 * n + 2 := by
  have hcontrol : s.toList.any Text.isControl = false := by
    rw [List.any_eq_false]
    intro c hc
    rcases hs c hc with hhex | rfl
    · rw [isControl_of_isHexDigit hhex]
      exact Bool.false_ne_true
    · decide
  have hsize : ∀ cs : List Char, (String.ofList cs).utf8ByteSize ≤ 4 * cs.length := by
    intro cs
    induction cs with
    | nil => decide
    | cons c cs ih =>
      have hc := c.utf8Size_le_four
      rw [utf8ByteSize_ofList_cons, List.length_cons]
      omega
  have hsize := hsize s.toList
  rw [String.ofList_toList, hlength] at hsize
  have htext := utf8ByteSize_stringText hcontrol
  omega

/-! ### Recorded actions -/

/-- The record of an action for one of its events. -/
def JournalRecord.as (record : JournalRecord) (suffix : Suffix) : JournalRecord :=
  { record with result := suffix.expected.1, undoState := suffix.expected.2 }

/-- The events do not contradict each other. -/
def Events.isCoherent (events : Events) : Bool :=
  !(events.has .aborted && events.has .conflict ||
    events.has .applied && (events.has .aborted || events.has .conflict) ||
    !events.has .applied && (events.has .undoConflict || events.has .undone))

/-- The events are those of one prepared action. -/
structure IsRecorded (target : ResolvedTarget) (id : String) (record : JournalRecord)
    (events : Events) : Prop where
  valid : validateEvent target id .prepared record = .ok ()
  prepared : events .prepared = some record
  written : ∀ suffix, events suffix = none ∨ events suffix = some (record.as suffix)
  coherent : events.isCoherent = true

variable {target : ResolvedTarget} {id : String} {record : JournalRecord} {events : Events}

theorem validateEvent_eq_ok {suffix : Suffix} :
    validateEvent target id suffix record = .ok () ↔
      record.version = journalVersion ∧ record.actionVersion = actionVersion ∧
        record.actionId = id ∧ validId id = true ∧
        record.redactedTarget = target.redactedIdentity ∧
        isPlain record.sourceRevision = true ∧ canonicalHash record.beforeSha256 = true ∧
        canonicalHash record.afterSha256 = true ∧
        (record.result, record.undoState) = suffix.expected := by
  unfold validateEvent
  split
  · rename_i h
    constructor
    · exact fun hok ↦ nomatch hok
    · rintro ⟨h₁, h₂, h₃, h₄, h₅, h₆, h₇, h₈, h₉⟩
      simp_all
  · rename_i h
    simpa only [not_or, ne_eq, not_not, Bool.not_eq_true', Bool.not_eq_false, true_iff] using h

theorem validateEvent_as (h : validateEvent target id .prepared record = .ok ())
    (suffix : Suffix) : validateEvent target id suffix (record.as suffix) = .ok () := by
  rw [validateEvent_eq_ok] at h ⊢
  obtain ⟨h₁, h₂, h₃, h₄, h₅, h₆, h₇, h₈, -⟩ := h
  exact ⟨h₁, h₂, h₃, h₄, h₅, h₆, h₇, h₈, rfl⟩

theorem as_prepared (h : validateEvent target id .prepared record = .ok ()) :
    record.as .prepared = record := by
  obtain ⟨-, -, -, -, -, -, -, -, hresult⟩ := validateEvent_eq_ok.mp h
  rw [JournalRecord.as, ← hresult]

theorem sameAction_as (record : JournalRecord) (suffix : Suffix) :
    sameAction record (record.as suffix) = true := by
  simp [sameAction, JournalRecord.as]

/-- An event of an action fits into a journal file. -/
theorem utf8ByteSize_text_le (h : validateEvent target id .prepared record = .ok ())
    (htarget : isPlain target.redactedIdentity = true) (suffix : Suffix) :
    (record.as suffix).text.utf8ByteSize ≤ maxJournalBytes := by
  obtain ⟨hversion, haction, hid, hvalid, hidentity, hrevision, hbefore, hafter, -⟩ :=
    validateEvent_eq_ok.mp h
  have hplain : ∀ s, isPlain s = true → (Report.stringText s).utf8ByteSize ≤ 258 := by
    intro s hs
    simp only [isPlain, Bool.and_eq_true, Bool.not_eq_true', decide_eq_true_eq] at hs
    have := utf8ByteSize_stringText hs.2
    omega
  have hhash : ∀ s, canonicalHash s = true → (Report.stringText s).utf8ByteSize ≤ 514 := by
    intro s hs
    simp only [canonicalHash, Bool.and_eq_true, beq_iff_eq, List.all_eq_true] at hs
    have hhex := utf8ByteSize_stringText_of_hex hs.1 fun c hc ↦
      .inl (by rw [isHexDigit, hs.2 c hc, Bool.true_or])
    omega
  have hid' : (Report.stringText id).utf8ByteSize ≤ 466 := by
    simp only [validId, Bool.and_eq_true, beq_iff_eq, List.all_eq_true] at hvalid
    have hchars : ∀ c ∈ id.toList, isHexDigit c = true ∨ c = '-' := by
      intro c hc
      obtain ⟨index, hindex, hget⟩ := List.mem_iff_getElem.mp hc
      have hmem : (c, index) ∈ id.toList.zipIdx := by
        rw [List.mk_mem_zipIdx_iff_getElem?, List.getElem?_eq_getElem hindex, hget]
      have hchar := hvalid.2 _ hmem
      split at hchar
      · exact .inr (by simpa using hchar)
      · exact .inl hchar
    have hhex := utf8ByteSize_stringText_of_hex hvalid.1 hchars
    omega
  have hresult : (Report.stringText suffix.expected.1.text).utf8ByteSize ≤ 10 := by
    cases suffix <;> decide +kernel
  have hundo : (Report.stringText suffix.expected.2.text).utf8ByteSize ≤ 23 := by
    cases suffix <;> decide +kernel
  have h₁ := hplain _ hrevision
  have h₂ := hplain _ htarget
  have h₃ := hhash _ hbefore
  have h₄ := hhash _ hafter
  have hparts : ∀ parts : List String,
      (String.join parts).utf8ByteSize = (parts.map String.utf8ByteSize).sum := by
    intro parts
    induction parts with
    | nil => rfl
    | cons part parts ih =>
      rw [String.join_cons, String.utf8ByteSize_append, ih, List.map_cons, List.sum_cons]
  have hbounds : List.Forall₂ (· ≤ ·) ((record.as suffix).parts.map String.utf8ByteSize)
      [11, 1, 13, 466, 18, 1, 19, 258, 19, 258, 17, 514, 16, 514, 10, 10, 14, 23, 1] := by
    simp only [JournalRecord.parts, JournalRecord.as, hversion, haction, hid, hidentity,
      List.map_cons, List.map_nil]
    refine .cons ?_ <| .cons ?_ <| .cons ?_ <| .cons hid' <| .cons ?_ <| .cons ?_ <| .cons ?_ <|
      .cons h₂ <| .cons ?_ <| .cons h₁ <| .cons ?_ <| .cons h₃ <| .cons ?_ <| .cons h₄ <|
      .cons ?_ <| .cons hresult <| .cons ?_ <| .cons hundo <| .cons ?_ .nil <;> decide +kernel
  rw [JournalRecord.text, hparts]
  exact hbounds.sum_le_sum.trans (by decide)

namespace IsRecorded

theorem validateEvents (h : IsRecorded target id record events) {suffix : Suffix}
    {event : JournalRecord} (hevent : events suffix = some event) :
    validateEvent target id suffix event = .ok () := by
  rcases h.written suffix with hnone | hsome
  · exact nomatch hnone.symm.trans hevent
  · obtain rfl := Option.some.inj (hsome.symm.trans hevent)
    exact validateEvent_as h.valid suffix

/-- The journal of a recorded action validates. -/
theorem validateJournal (h : IsRecorded target id record events) :
    validateJournal events = .ok () := by
  have hsame : (journalSuffixes.any fun suffix ↦ (events suffix).any fun event ↦
      !sameAction record event) = false := by
    rw [List.any_eq_false]
    intro suffix _
    rcases h.written suffix with hnone | hsome
    · simp [hnone]
    · simp [hsome, sameAction_as]
  have hcoherent := h.coherent
  simp only [Events.isCoherent, Bool.not_eq_true'] at hcoherent
  simp only [Action.validateJournal, h.prepared, hsame, hcoherent, Bool.false_eq_true, if_false]

theorem not_isEmpty (h : IsRecorded target id record events) : events.isEmpty = false := by
  simp [Events.isEmpty, journalSuffixes, Events.has, h.prepared]

theorem has_prepared (h : IsRecorded target id record events) : events.has .prepared = true := by
  simp [Events.has, h.prepared]

/-- One more event of a recorded action. -/
theorem insert (h : IsRecorded target id record events) {suffix : Suffix}
    (hcoherent : (events.insert suffix (record.as suffix)).isCoherent = true) :
    IsRecorded target id record (events.insert suffix (record.as suffix)) := by
  refine ⟨h.valid, ?_, fun other ↦ ?_, hcoherent⟩
  · by_cases hsuffix : suffix = .prepared
    · subst hsuffix
      rw [Events.insert, Function.update_self, as_prepared h.valid]
    · rw [Events.insert, Function.update_of_ne (Ne.symm hsuffix), h.prepared]
  · by_cases hother : other = suffix
    · subst hother
      exact .inr (Function.update_self ..)
    · rw [Events.insert, Function.update_of_ne hother]
      exact h.written other

/-- The first event of an action. -/
theorem start (h : validateEvent target id .prepared record = .ok ()) :
    IsRecorded target id record (Events.none.insert .prepared record) := by
  refine ⟨h, Function.update_self .., fun other ↦ ?_, rfl⟩
  by_cases hother : other = .prepared
  · subst hother
    rw [as_prepared h]
    exact .inr (Function.update_self ..)
  · exact .inl (Function.update_of_ne hother ..)

end IsRecorded

@[simp]
theorem has_insert (events : Events) (suffix other : Suffix) (event : JournalRecord) :
    (events.insert suffix event).has other = (decide (other = suffix) || events.has other) := by
  by_cases h : other = suffix
  · subst h
    simp [Events.insert, Events.has]
  · simp [Events.insert, Events.has, h]

@[simp]
theorem has_none (suffix : Suffix) : Events.none.has suffix = false :=
  rfl

end AgentOdometer.Action
