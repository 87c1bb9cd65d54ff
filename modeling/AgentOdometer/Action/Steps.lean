import AgentOdometer.Action.Executor
import Mathlib.Data.List.Infix

/-!
# Steps of a transaction

What others do to the files, what a call of a transaction writes, and what each operation of the
executor leaves when others may act between any two of its calls. An operation ends in an error
only when a call fails, when others have written the target, or when it cannot be read.
-/

namespace AgentOdometer.Action

open Program

variable {target : ResolvedTarget} {id : String}

namespace World

/-! ### The file system -/

@[simp]
theorem entry_setEntry (w : World) (e : Entry) : (w.setEntry target id e).entry target id = e := by
  simp [entry, setEntry]

/-- The files of other actions stay. -/
theorem entry_setEntry_of_ne (w : World) (e : Entry) {other : ResolvedTarget} {otherId : String}
    (hne : other.journal ≠ target.journal ∨ otherId ≠ id) :
    (w.setEntry target id e).entry other otherId = w.entry other otherId := by
  by_cases hjournal : other.journal = target.journal
  · have hid := hne.resolve_left (not_not_intro hjournal)
    cases hdir : w.journals target.journal <;>
      simp [entry, setEntry, hjournal, hdir, Function.update_of_ne hid]
  · simp [entry, setEntry, Function.update_of_ne hjournal]

@[simp]
theorem entry_createJournal (w : World) (other : ResolvedTarget) (otherId : String) :
    (w.createJournal target).entry other otherId = w.entry other otherId := by
  by_cases hjournal : other.journal = target.journal
  · cases hdir : w.journals target.journal <;>
      simp [entry, createJournal, hjournal, hdir]
  · simp [entry, createJournal, Function.update_of_ne hjournal]

@[simp]
theorem entry_see (w : World) (other : ResolvedTarget) (otherId : String) :
    (w.see target).entry other otherId = w.entry other otherId :=
  rfl

@[simp]
theorem entry_replace (w : World) (bytes : Bytes) (other : ResolvedTarget) (otherId : String) :
    (w.replace target bytes).entry other otherId = w.entry other otherId :=
  rfl

@[simp]
theorem hasJournal_createJournal (w : World) :
    (w.createJournal target).hasJournal target = true := by
  simp [hasJournal, createJournal]

/-- An action with a file has a journal directory. -/
theorem hasJournal_of_entry_ne {w : World} (h : w.entry target id ≠ .empty) :
    w.hasJournal target = true := by
  unfold entry at h
  unfold hasJournal
  cases hdir : w.journals target.journal with
  | none => simp [hdir] at h
  | some dir => rfl

end World

/-! ### What others do -/

/-- Others write files; the newest content of a file is what they have written last. -/
structure Edited (w w' : World) : Prop where
  journals : w'.journals = w.journals
  lost : w'.lost = w.lost
  file : ∀ file, (w'.files file = w.files file ∧ w'.edits file = w.edits file ∧
      w'.unseen file = w.unseen file) ∨
    ∃ older, w'.edits file = w'.files file :: (older ++ w.edits file) ∧ w'.unseen file = true

namespace Edited

theorem refl (w : World) : Edited w w :=
  ⟨rfl, rfl, fun _ ↦ .inl ⟨rfl, rfl, rfl⟩⟩

theorem trans {a b c : World} (h : Edited a b) (h' : Edited b c) : Edited a c := by
  refine ⟨h'.journals.trans h.journals, h'.lost.trans h.lost, fun file ↦ ?_⟩
  rcases h'.file file with ⟨hfile', hedits', hunseen'⟩ | ⟨older', hedits', hunseen'⟩
  · rcases h.file file with ⟨hfile, hedits, hunseen⟩ | ⟨older, hedits, hunseen⟩
    · exact .inl ⟨hfile'.trans hfile, hedits'.trans hedits, hunseen'.trans hunseen⟩
    · exact .inr ⟨older, by rw [hedits', hedits, hfile'], hunseen'.trans hunseen⟩
  · rcases h.file file with ⟨-, hedits, -⟩ | ⟨older, hedits, -⟩
    · exact .inr ⟨older', by rw [hedits', hedits], hunseen'⟩
    · refine .inr ⟨older' ++ b.files file :: older, ?_, hunseen'⟩
      rw [hedits', hedits, List.append_assoc, List.cons_append]

/-- A write by others. -/
theorem edit (w : World) (file : String) (content : TargetFile) :
    Edited w (w.edit file content) := by
  refine ⟨rfl, rfl, fun other ↦ ?_⟩
  by_cases hother : other = file
  · subst hother
    exact .inr ⟨[], by simp [World.edit], by simp [World.edit]⟩
  · exact .inl ⟨Function.update_of_ne hother .., Function.update_of_ne hother ..,
      Function.update_of_ne hother ..⟩

theorem entry {w w' : World} (h : Edited w w') (target : ResolvedTarget) (id : String) :
    w'.entry target id = w.entry target id := by
  rw [World.entry, h.journals, World.entry]

theorem isSuffix {w w' : World} (h : Edited w w') (file : String) :
    w.edits file <:+ w'.edits file := by
  rcases h.file file with ⟨-, hedits, -⟩ | ⟨older, hedits, -⟩
  · rw [hedits]
  · exact ⟨w'.files file :: older, hedits.symm⟩

end Edited

/-- What happens around a transaction: others write files, and calls may fail. -/
def beside (faulty : Prop) : Surroundings Unit World where
  others := Edited
  fails := fun _ w w' ↦ faulty ∧ w' = w

/-! ### What a transaction knows -/

/-- What is known of the world since another one: the files of the action, what the target holds
and what else is true unless others have written it since, and what it holds unless they have since
it was last read. -/
structure Knows (target : ResolvedTarget) (id : String) (w₀ : World) (e : Entry) (x : TargetFile)
    (seen : Option Bytes) (p : Prop) (w : World) : Prop where
  entry : w.entry target id = e
  history : w₀.edits target.file <:+ w.edits target.file
  content : w.edits target.file = w₀.edits target.file → w.files target.file = x
  fact : w.edits target.file = w₀.edits target.file → p
  current : ∀ bytes, seen = some bytes → w.unseen target.file = false →
    w.files target.file = .regular bytes

/-- The executor can read the content of the target. -/
def Readable (target : ResolvedTarget) (x : TargetFile) : Prop :=
  ∃ bytes, x = .regular bytes ∧ bytes.length ≤ maxTargetBytes ∧
    isPlain target.redactedIdentity = true

/-- The reasons for which an operation may end in an error. -/
def Excused (faulty : Prop) (target : ResolvedTarget) (w₀ : World) (x : TargetFile)
    (w : World) : Prop :=
  faulty ∨ w.edits target.file ≠ w₀.edits target.file ∨ ¬Readable target x

variable {w₀ w w' : World} {e : Entry} {x : TargetFile} {seen : Option Bytes} {p faulty : Prop}

namespace Knows

/-- If a file is as written since an earlier world, nobody has written it in between. -/
theorem unedited (h : Knows target id w₀ e x seen p w) (hw : Edited w w')
    (hsame : w'.edits target.file = w₀.edits target.file) :
    w.edits target.file = w₀.edits target.file ∧ w'.files target.file = w.files target.file := by
  rcases hw.file target.file with ⟨hfile, hedits, -⟩ | ⟨older, hedits, -⟩
  · exact ⟨hedits.symm.trans hsame, hfile⟩
  · have hlength := h.history.length_le
    have hlonger := congrArg List.length (hedits.symm.trans hsame)
    rw [List.length_cons, List.length_append] at hlonger
    omega

theorem edited (h : Knows target id w₀ e x seen p w) (hw : Edited w w') :
    Knows target id w₀ e x seen p w' := by
  refine ⟨(hw.entry target id).trans h.entry, h.history.trans (hw.isSuffix _), fun hsame ↦ ?_,
    fun hsame ↦ h.fact (h.unedited hw hsame).1, fun bytes hseen hunseen ↦ ?_⟩
  · obtain ⟨hbefore, hfile⟩ := h.unedited hw hsame
    exact hfile.trans (h.content hbefore)
  · rcases hw.file target.file with ⟨hfile, -, hsame⟩ | ⟨older, -, hunread⟩
    · rw [hfile]
      exact h.current bytes hseen (hsame.symm.trans hunseen)
    · exact nomatch hunread.symm.trans hunseen

theorem start (target : ResolvedTarget) (id : String) (w : World) :
    Knows target id w (w.entry target id) (w.files target.file) none True w :=
  ⟨rfl, List.suffix_rfl, fun _ ↦ rfl, fun _ ↦ trivial, fun _ h ↦ nomatch h⟩

theorem forget (h : Knows target id w₀ e x seen p w) : Knows target id w₀ e x none p w :=
  ⟨h.entry, h.history, h.content, h.fact, fun _ h ↦ nomatch h⟩

theorem weaken {q : Prop} (h : Knows target id w₀ e x seen p w) (hq : p → q) :
    Knows target id w₀ e x seen q w :=
  ⟨h.entry, h.history, h.content, fun hsame ↦ hq (h.fact hsame), h.current⟩

theorem createJournal (h : Knows target id w₀ e x seen p w) :
    Knows target id w₀ e x seen p (w.createJournal target) :=
  ⟨(World.entry_createJournal ..).trans h.entry, h.history, h.content, h.fact, h.current⟩

theorem setEntry (h : Knows target id w₀ e x seen p w) (e' : Entry) :
    Knows target id w₀ e' x seen p (w.setEntry target id e') :=
  ⟨World.entry_setEntry .., h.history, h.content, h.fact, h.current⟩

theorem replace (h : Knows target id w₀ e x seen p w) (bytes : Bytes) :
    Knows target id w₀ e (.regular bytes) none p (w.replace target bytes) :=
  ⟨h.entry, h.history, fun _ ↦ Function.update_self .., h.fact, fun _ h ↦ nomatch h⟩

/-- The target was read. -/
theorem see (h : Knows target id w₀ e x seen p w) {bytes : Bytes}
    (hbytes : w.files target.file = .regular bytes) :
    Knows target id w₀ e x (some bytes) (p ∧ x = .regular bytes) (w.see target) :=
  ⟨h.entry, h.history, h.content,
    fun hsame ↦ ⟨h.fact hsame, (h.content hsame).symm.trans hbytes⟩,
    fun _ hseen _ ↦ by rw [← Option.some.inj hseen]; exact hbytes⟩

/-- A target which the executor cannot read is excused. -/
theorem excused (h : Knows target id w₀ e x seen p w)
    (hunreadable : ¬Readable target (w.files target.file)) : Excused faulty target w₀ x w := by
  by_cases hsame : w.edits target.file = w₀.edits target.file
  · rw [h.content hsame] at hunreadable
    exact .inr (.inr hunreadable)
  · exact .inr (.inl hsame)

end Knows

theorem checkedTarget_eq_ok :
    checkedTarget target w = .ok () ↔ Readable target (w.files target.file) := by
  unfold checkedTarget Readable
  cases w.files target.file with
  | missing => simp
  | special => simp
  | regular bytes =>
    simp only [TargetFile.regular.injEq, exists_eq_left']
    split
    · simp only [reduceCtorEq, false_iff]
      omega
    · split
      · simp_all
      · simp_all

/-! ### What a call writes -/

section Hash

variable {sha256 : Bytes → String} {before after : String}

/-- The files of a prepared action: its events and a backup with the recorded content. The
replacement fits into the target. -/
structure Entry.Records (sha256 : Bytes → String) (target : ResolvedTarget) (id : String)
    (record : JournalRecord) (e : Entry) : Prop where
  recorded : IsRecorded target id record e.events
  backup : ∃ bytes, e.backup = some bytes ∧ bytes.length ≤ maxTargetBytes ∧
    sha256 bytes = record.beforeSha256
  replacement : ∃ bytes, bytes.length ≤ maxTargetBytes ∧ sha256 bytes = record.afterSha256
  plain : isPlain target.redactedIdentity = true

/-- The target goes from the recorded content before the action to the one after it, or back. -/
def Exchanges (sha256 : Bytes → String) (before after : String) (x : TargetFile) (bytes : Bytes) :
    Prop :=
  ∃ current, x = .regular current ∧
    (sha256 current = before ∧ sha256 bytes = after ∨
      sha256 current = after ∧ sha256 bytes = before)

/-- What one call of a transaction writes. A backup is written before the action has an event, an
event only if the files then record the action, and the target is exchanged if the executor has
seen its content. -/
inductive Wrote (sha256 : Bytes → String) (target : ResolvedTarget) (id before after : String) :
    World → World → Prop where
  | same (w : World) : Wrote sha256 target id before after w w
  | see (w : World) : Wrote sha256 target id before after w (w.see target)
  | createJournal (w : World) : Wrote sha256 target id before after w (w.createJournal target)
  | backup (w : World) (bytes : Bytes) : (w.entry target id).events = Events.none →
      Wrote sha256 target id before after w
        (w.setEntry target id ⟨Events.none, some bytes⟩)
  | event (w : World) (record : JournalRecord) (suffix : Suffix) :
      record.beforeSha256 = before → record.afterSha256 = after →
      (w.entry target id).events.has suffix = false →
      (w.entry target id).events = Events.none ∨
        IsRecorded target id record (w.entry target id).events →
      Entry.Records sha256 target id record { w.entry target id with
        events := (w.entry target id).events.insert suffix (record.as suffix) } →
      Wrote sha256 target id before after w (w.setEntry target id { w.entry target id with
        events := (w.entry target id).events.insert suffix (record.as suffix) })
  | replace (w : World) (record : JournalRecord) (bytes : Bytes) :
      record.beforeSha256 = before → record.afterSha256 = after →
      Entry.Records sha256 target id record (w.entry target id) →
      (w.unseen target.file = false →
        Exchanges sha256 before after (w.files target.file) bytes) →
      Wrote sha256 target id before after w (w.replace target bytes)

/-! ### Operations -/

theorem ensures_readWorld {α : Type} {f : World → Except ActionError α}
    {Q : Except ActionError α → World → Prop} (h : Knows target id w₀ e x seen p w)
    (hf : ∀ w', Knows target id w₀ e x seen p w' → Q (f w') w')
    (herror : ∀ w', Knows target id w₀ e x seen p w' → Excused faulty target w₀ x w' →
      Q (.error .io) w') :
    (Transaction.read f).Ensures (beside faulty) (Wrote sha256 target id before after) Q w := by
  refine ensures_read fun w₁ hw₁ ↦ ⟨.same w₁, hf w₁ (h.edited hw₁), ?_⟩
  rintro w₂ ⟨hfaulty, rfl⟩
  exact ⟨.same w₂, herror w₂ (h.edited hw₁) (.inl hfaulty)⟩

theorem ensures_stage {Q : Except ActionError Unit → World → Prop}
    (h : Knows target id w₀ e x seen p w)
    (hok : ∀ w', Knows target id w₀ e x seen p w' → Q (.ok ()) w')
    (herror : ∀ w', Knows target id w₀ e x seen p w' → Excused faulty target w₀ x w' →
      Q (.error .io) w') :
    Transaction.stage.Ensures (beside faulty) (Wrote sha256 target id before after) Q w :=
  ensures_readWorld h hok herror

/-- The target is checked. -/
theorem ensures_checkedTarget {Q : Except ActionError Unit → World → Prop}
    (h : Knows target id w₀ e x seen p w)
    (hok : ∀ w', Knows target id w₀ e x seen p w' →
      isPlain target.redactedIdentity = true → Q (.ok ()) w')
    (herror : ∀ er w', Knows target id w₀ e x seen p w' → Excused faulty target w₀ x w' →
      Q (.error er) w') :
    (Transaction.read (checkedTarget target)).Ensures (beside faulty)
      (Wrote sha256 target id before after) Q w := by
  refine ensures_readWorld h (fun w' hw' ↦ ?_) (herror .io)
  cases hcheck : checkedTarget target w' with
  | ok =>
    obtain ⟨-, -, -, hplain⟩ := checkedTarget_eq_ok.mp hcheck
    exact hok w' hw' hplain
  | error er =>
    refine herror er w' hw' (hw'.excused fun hreadable ↦ ?_)
    exact nomatch hcheck.symm.trans (checkedTarget_eq_ok.mpr hreadable)

/-- A call which writes. -/
theorem ensures_write {act : World → Option World} {Q : Except ActionError Unit → World → Prop}
    (h : Knows target id w₀ e x seen p w)
    (hdone : ∀ w₁ w₂, Knows target id w₀ e x seen p w₁ → act w₁ = some w₂ →
      Wrote sha256 target id before after w₁ w₂ ∧ Q (.ok ()) w₂ ∧ (faulty → Q (.error .io) w₂))
    (hrefused : ∀ w₁, Knows target id w₀ e x seen p w₁ → act w₁ = none → Q (.error .io) w₁)
    (hfailed : ∀ w₁, Knows target id w₀ e x seen p w₁ → faulty → Q (.error .io) w₁) :
    (Transaction.write act).Ensures (beside faulty) (Wrote sha256 target id before after) Q w := by
  refine ensures_call.mpr fun w₁ hw₁ ↦ ?_
  have hknows := h.edited hw₁
  refine ⟨fun w₂ hact ↦ ?_, fun hact ↦ ensures_error.mpr (hrefused w₁ hknows hact), ?_⟩
  · obtain ⟨hwrote, hok, -⟩ := hdone w₁ w₂ hknows hact
    exact ⟨hwrote, ensures_ok.mpr hok⟩
  · rintro w₂ n ⟨hfaulty, rfl⟩
    by_cases hn : n = 0
    · simp only [if_pos hn]
      exact ⟨.same w₂, ensures_error.mpr (hfailed w₂ hknows hfaulty)⟩
    · simp only [if_neg hn]
      cases hact : act w₂ with
      | none => exact ⟨.same w₂, ensures_error.mpr (hfailed w₂ hknows hfaulty)⟩
      | some w₃ =>
        obtain ⟨hwrote, -, herror⟩ := hdone w₂ w₃ hknows hact
        exact ⟨hwrote, ensures_error.mpr (herror hfaulty)⟩

/-- The target is read. -/
theorem ensures_readTarget {Q : Except ActionError Bytes → World → Prop}
    (h : Knows target id w₀ e x seen p w)
    (hok : ∀ bytes w', Knows target id w₀ e x (some bytes) (p ∧ x = .regular bytes) w' →
      bytes.length ≤ maxTargetBytes → isPlain target.redactedIdentity = true → Q (.ok bytes) w')
    (herror : ∀ er w', Knows target id w₀ e x none p w' → Excused faulty target w₀ x w' →
      Q (.error er) w') :
    (readTarget target).Ensures (beside faulty) (Wrote sha256 target id before after) Q w := by
  rw [readTarget, ensures_bind]
  refine ensures_checkedTarget h (fun w' hw' hplain ↦ ?_) fun er w' hw' hexcused ↦
    herror er w' hw'.forget hexcused
  refine ensures_call.mpr fun w₁ hw₁ ↦ ?_
  have hknows := hw'.edited hw₁
  refine ⟨fun w₂ hact ↦ ⟨?_, ?_⟩, (fun hact ↦ nomatch hact), ?_⟩
  · cases hact
    exact .see w₁
  · cases hact
    refine ensures_ofExcept.mpr ?_
    have hunreadable : ¬Readable target (w₁.files target.file) →
        Excused faulty target w₀ x (w₁.see target) := hknows.excused
    have hseen : Knows target id w₀ e x none p (w₁.see target) :=
      ⟨hknows.entry, hknows.history, hknows.content, hknows.fact, fun _ h ↦ nomatch h⟩
    unfold boundedFile
    cases hfile : w₁.files target.file with
    | missing => exact herror _ _ hseen (hunreadable (by rw [hfile]; rintro ⟨_, h, _⟩; cases h))
    | special => exact herror _ _ hseen (hunreadable (by rw [hfile]; rintro ⟨_, h, _⟩; cases h))
    | regular bytes =>
      by_cases hlength : bytes.length > maxTargetBytes
      · simp only [if_pos hlength]
        refine herror _ _ hseen (hunreadable ?_)
        rintro ⟨other, hother, hshort, -⟩
        cases hfile.symm.trans hother
        omega
      · simp only [if_neg hlength]
        exact hok bytes _ (hknows.see hfile) (by omega) hplain
  · rintro w₂ n ⟨hfaulty, rfl⟩
    exact ⟨.same w₂, ensures_error.mpr (herror _ _ hknows.forget (.inl hfaulty))⟩

/-- The journal directory is created if it is missing. -/
theorem ensures_ensureJournalDir {Q : Except ActionError Unit → World → Prop}
    (h : Knows target id w₀ e x seen p w)
    (hok : ∀ w', Knows target id w₀ e x seen p w' → Q (.ok ()) w')
    (herror : ∀ er w', Knows target id w₀ e x seen p w' → Excused faulty target w₀ x w' →
      Q (.error er) w') :
    (ensureJournalDir target).Ensures (beside faulty) (Wrote sha256 target id before after) Q
      w := by
  rw [ensureJournalDir, ensures_bind]
  refine ensures_checkedTarget h (fun w' hw' _ ↦ ?_) herror
  refine ensures_write hw' (fun w₁ w₂ hw₁ hact ↦ ?_) (fun w₁ _ hact ↦ nomatch hact)
    fun w₁ hw₁ hfaulty ↦ herror _ _ hw₁ (.inl hfaulty)
  cases hact
  exact ⟨.createJournal w₁, hok _ hw₁.createJournal,
    fun hfaulty ↦ herror _ _ hw₁.createJournal (.inl hfaulty)⟩

/-- The events of an action are read. -/
theorem ensures_readJournalEvents {Q : Except ActionError Events → World → Prop}
    (h : Knows target id w₀ e x seen p w) (hid : validId id = true)
    (hevents : ∀ suffix record, e.events suffix = some record →
      validateEvent target id suffix record = .ok ())
    (hok : ∀ w', Knows target id w₀ e x seen p w' → Q (.ok e.events) w')
    (herror : ∀ er w', Knows target id w₀ e x seen p w' → Excused faulty target w₀ x w' →
      Q (.error er) w') :
    (readJournalEvents target id).Ensures (beside faulty)
      (Wrote sha256 target id before after) Q w := by
  rw [readJournalEvents, if_neg (by simp [hid])]
  refine ensures_readWorld h (fun w' hw' ↦ ?_) (herror .io)
  have hentry := hw'.entry
  unfold World.entry at hentry
  unfold journalEvents
  cases hdir : w'.journals target.journal with
  | none =>
    rw [hdir] at hentry
    have hok := hok w' hw'
    rw [← hentry] at hok
    exact hok
  | some dir =>
    rw [hdir] at hentry
    have hentry : dir id = e := hentry
    cases hcheck : checkedTarget target w' with
    | error er =>
      refine herror er w' hw' (hw'.excused fun hreadable ↦ ?_)
      exact nomatch hcheck.symm.trans (checkedTarget_eq_ok.mpr hreadable)
    | ok =>
      have hcheck : checkEvent target id e.events = fun _ ↦ .ok () := by
        funext suffix
        unfold checkEvent
        cases hevent : e.events suffix with
        | none => rfl
        | some record => exact hevents suffix record hevent
      have hall : journalSuffixes.forM (checkEvent target id e.events) = .ok () := by
        rw [hcheck]
        rfl
      simp only [hentry, hall]
      exact hok w' hw'

end Hash

end AgentOdometer.Action
