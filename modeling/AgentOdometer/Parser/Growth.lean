import AgentOdometer.Lib.Lines
import AgentOdometer.Parser.Json

/-!
# Transcripts which grow

`parse_to_end`, which the three parsers have in common (`parser.rs:41–91`,
`claude_parser.rs:81–130`, `gemini_parser.rs:68–118`). It reads a file on from where the last call
ended and derives the figures of the session again when a line was applied. A file which only grows
between the calls is parsed as if it had been read at once.
-/

namespace AgentOdometer.Parser

open Lines

/-- A change of a parser which does not read its offset or its derived figures, keeps the offset and
what is left after a reset, and carries the figures along. -/
structure Keeps {σ : Type} (plain : σ → σ) (seek : Nat → σ → σ) (reset : σ → σ) (f : σ → σ) :
    Prop where
  plain : ∀ s, f (plain s) = plain (f s)
  seek : ∀ n s, f (seek n s) = seek n (f s)
  reset : ∀ s, reset (f s) = reset s

theorem Keeps.comp {σ : Type} {plain : σ → σ} {seek : Nat → σ → σ} {reset f g : σ → σ}
    (hg : Keeps plain seek reset g) (hf : Keeps plain seek reset f) :
    Keeps plain seek reset fun s ↦ g (f s) where
  plain s := by rw [hf.plain, hg.plain]
  seek n s := by rw [hf.seek, hg.seek]
  reset s := by rw [hg.reset, hf.reset]

/-- The same of a change which may be in error. -/
structure MayKeep {σ : Type} (plain : σ → σ) (seek : Nat → σ → σ) (reset : σ → σ)
    (f : σ → Option σ) : Prop where
  plain : ∀ s, f (plain s) = (f s).map plain
  seek : ∀ n s, f (seek n s) = (f s).map (seek n)
  reset : ∀ s s', f s = some s' → reset s' = reset s

section

variable {σ : Type} {plain : σ → σ} {seek : Nat → σ → σ} {reset : σ → σ}

theorem Keeps.some {f : σ → σ} (hf : Keeps plain seek reset f) :
    MayKeep plain seek reset fun s ↦ some (f s) where
  plain s := congrArg Option.some (hf.plain s)
  seek n s := congrArg Option.some (hf.seek n s)
  reset s s' h := by
    cases h
    exact hf.reset s

theorem MayKeep.comp {f : σ → Option σ} {g : σ → σ} (hf : MayKeep plain seek reset f)
    (hg : Keeps plain seek reset g) : MayKeep plain seek reset fun s ↦ f (g s) where
  plain s := by rw [hg.plain, hf.plain]
  seek n s := by rw [hg.seek, hf.seek]
  reset s s' h := by rw [hf.reset _ _ h, hg.reset]

theorem MayKeep.bind {α : Type} (read : Option α) {f : α → σ → Option σ}
    (hf : ∀ a, MayKeep plain seek reset (f a)) :
    MayKeep plain seek reset fun s ↦ read.bind fun a ↦ f a s := by
  cases read with
  | none =>
    constructor
    · exact fun _ ↦ rfl
    · exact fun _ _ ↦ rfl
    · rintro s s' ⟨⟩
  | some a => exact hf a

end

/-- A parser of transcripts: what `parse_to_end` uses of it, and what the parts have to do with each
other. `plain` is the parser without the figures which `refresh` derives. -/
structure LineParser (σ : Type) where
  offset : σ → Nat
  seek : Nat → σ → σ
  /-- `apply_line_without_refresh`. -/
  apply : TranscriptLine → σ → Option σ
  /-- `refresh_session`. -/
  refresh : σ → σ
  /-- `reset_for_replaced_file`. -/
  reset : σ → σ
  /-- The texts which are applied alike at any time. -/
  Dated : String → Prop
  plain : σ → σ
  offset_seek : ∀ n s, offset (seek n s) = n
  seek_offset : ∀ s, seek (offset s) s = s
  seek_seek : ∀ n m s, seek n (seek m s) = seek n s
  seek_refresh : ∀ n s, seek n (refresh s) = refresh (seek n s)
  seek_plain : ∀ n s, seek n (plain s) = plain (seek n s)
  apply_now : ∀ text now now' s, Dated text → apply ⟨text, now⟩ s = apply ⟨text, now'⟩ s
  keeps : ∀ line, MayKeep plain seek reset (apply line)
  refresh_plain : ∀ s, refresh (plain s) = refresh s
  plain_refresh : ∀ s, plain (refresh s) = plain s
  offset_reset : ∀ s, offset (reset s) = 0
  reset_seek : ∀ n s, reset (seek n s) = reset s
  reset_refresh : ∀ s, reset (refresh s) = reset s
  reset_reset : ∀ s, reset (reset s) = reset s

namespace LineParser

variable {σ : Type} (P : LineParser σ)

/-- The text of a line, when it has one. Follows `parser.rs:69–78`. -/
def lineText (line : List UInt8) : Option String :=
  ((Text.fromUtf8 line).map Text.trim).filter (· ≠ "")

/-- The loop of `parse_to_end`, `parser.rs:53–83`, over the rest of the file. A line which is not
UTF-8, blank or in error is passed over, and a part of one is left. The clock tells when the line at
an offset is applied. -/
def parseLines (clock : Nat → DateTime) (rest : List UInt8) (s : σ) (updated : Bool) : σ × Bool :=
  let line := readUntil 10 rest
  if line.getLast? = some 10 then
    let start := P.offset s
    let s := P.seek (start + line.length) s
    let applied := (lineText line).bind fun text ↦ P.apply ⟨text, clock start⟩ s
    parseLines clock (rest.drop line.length) (applied.getD s) (updated || applied.isSome)
  else (s, updated)
termination_by rest.length
decreasing_by
  rename_i hline
  have hlast : (readUntil 10 rest).getLast? = some 10 := hline
  have hne : readUntil 10 rest ≠ [] := by
    intro hnil
    rw [hnil] at hlast
    cases hlast
  have hpos : 0 < (readUntil 10 rest).length := List.length_pos_iff.mpr hne
  have hle : (readUntil 10 rest).length ≤ rest.length := length_readUntil_le rest
  rw [List.length_drop]
  omega

/-- The figures are derived when a line was applied. Follows `parser.rs:85–89`. -/
def settle (read : σ × Bool) : σ :=
  if read.2 then P.refresh read.1 else read.1

/-- `parse_to_end`, `parser.rs:41–91`, of a file with the given content. -/
def parseToEnd (clock : Nat → DateTime) (content : List UInt8) (s : σ) : σ × Bool :=
  let s := if content.length < P.offset s then P.reset s else s
  let read := P.parseLines clock (content.drop (P.offset s)) s false
  (P.settle read, read.2)

/-- The texts of the complete lines of a file. -/
def texts (content : List UInt8) : List String :=
  (splitLines 10 content).1.filterMap lineText

/-- A text is applied, at some time. -/
def applyText (text : String) (read : σ × Bool) : σ × Bool :=
  let applied := P.apply ⟨text, .epoch⟩ read.1
  (applied.getD read.1, read.2 || applied.isSome)

def applyTexts (texts : List String) (read : σ × Bool) : σ × Bool :=
  texts.foldl (fun read text ↦ P.applyText text read) read

/-- How many bytes the complete lines of a file take. -/
def complete (content : List UInt8) : Nat :=
  (splitLines 10 content).1.flatten.length

variable {P}

/-! ### The loop -/

theorem seek_applyTexts (texts : List String) (n : Nat) (s : σ) (updated : Bool) :
    P.applyTexts texts (P.seek n s, updated) =
      (P.seek n (P.applyTexts texts (s, updated)).1, (P.applyTexts texts (s, updated)).2) := by
  induction texts generalizing s updated with
  | nil => rfl
  | cons text rest ih =>
    have hhead : P.applyText text (P.seek n s, updated) =
        (P.seek n (P.applyText text (s, updated)).1, (P.applyText text (s, updated)).2) := by
      unfold applyText
      rw [(P.keeps _).seek]
      cases P.apply ⟨text, .epoch⟩ s <;> rfl
    rw [applyTexts, applyTexts, List.foldl_cons, List.foldl_cons, hhead]
    exact ih _ _

/-- The loop applies the texts of the complete lines and ends behind them. -/
theorem parseLines_eq (clock : Nat → DateTime) (rest : List UInt8) (s : σ) (updated : Bool)
    (hdated : ∀ text ∈ texts rest, P.Dated text) :
    P.parseLines clock rest s updated =
      (P.seek (P.offset s + complete rest) (P.applyTexts (texts rest) (s, updated)).1,
        (P.applyTexts (texts rest) (s, updated)).2) := by
  obtain ⟨lines, tail, rfl, hlines, htail⟩ := exists_lines 10 rest
  induction lines generalizing s updated with
  | nil =>
    have hsplit : splitLines 10 ([].flatten ++ tail) = ([], tail) := splitLines_of_notMem htail
    rw [parseLines, texts, complete, hsplit]
    have hlast : (readUntil 10 ([].flatten ++ tail)).getLast? ≠ some 10 := fun hlast ↦
      htail (getLast?_readUntil_eq_iff.mp hlast)
    rw [if_neg hlast]
    show (s, updated) = (P.seek (P.offset s + 0) s, updated)
    rw [Nat.add_zero, P.seek_offset]
  | cons line lines ih =>
    rw [List.forall_mem_cons] at hlines
    rw [List.flatten_cons, List.append_assoc] at hdated ⊢
    have hread : readUntil 10 (line ++ (lines.flatten ++ tail)) = line :=
      readUntil_isLine_append hlines.1
    have hsplit : (splitLines 10 (line ++ (lines.flatten ++ tail))).1 =
        line :: (splitLines 10 (lines.flatten ++ tail)).1 :=
      congrArg Prod.fst (splitLines_isLine_append hlines.1)
    have hlength : complete (line ++ (lines.flatten ++ tail)) =
        line.length + complete (lines.flatten ++ tail) := by
      rw [complete, hsplit, List.flatten_cons, List.length_append, complete]
    rw [parseLines]
    simp only [hread, if_pos hlines.1.getLast?, List.drop_left, (P.keeps _).seek]
    cases htext : lineText line with
    | none =>
      have htexts : texts (line ++ (lines.flatten ++ tail)) = texts (lines.flatten ++ tail) := by
        rw [texts, hsplit, List.filterMap_cons_none htext, texts]
      rw [htexts] at hdated ⊢
      show P.parseLines clock (lines.flatten ++ tail) (P.seek (P.offset s + line.length) s)
        (updated || false) = _
      rw [Bool.or_false, ih _ _ hdated hlines.2, seek_applyTexts, P.offset_seek, P.seek_seek,
        hlength, Nat.add_assoc]
    | some text =>
      have htexts : texts (line ++ (lines.flatten ++ tail)) =
          text :: texts (lines.flatten ++ tail) := by
        rw [texts, hsplit, List.filterMap_cons_some htext, texts]
      rw [htexts] at hdated ⊢
      rw [List.forall_mem_cons] at hdated
      have happlied : ((P.apply ⟨text, .epoch⟩ s).map (P.seek (P.offset s + line.length))).getD
          (P.seek (P.offset s + line.length) s) =
            P.seek (P.offset s + line.length) (P.applyText text (s, updated)).1 := by
        unfold applyText
        cases P.apply ⟨text, .epoch⟩ s <;> rfl
      simp only [Option.bind_some, P.apply_now text _ .epoch s hdated.1, Option.isSome_map,
        happlied]
      rw [ih _ _ hdated.2 hlines.2, seek_applyTexts, P.offset_seek, P.seek_seek, hlength,
        Nat.add_assoc]
      rfl

theorem settle_seek (n : Nat) (read : σ × Bool) :
    P.settle (P.seek n read.1, read.2) = P.seek n (P.settle read) := by
  unfold settle
  split
  · exact (P.seek_refresh n read.1).symm
  · rfl

/-! ### One call and two -/

theorem applyTexts_append (front back : List String) (read : σ × Bool) :
    P.applyTexts (front ++ back) read = P.applyTexts back (P.applyTexts front read) :=
  List.foldl_append

/-- What was updated stays so, and nothing else depends on it. -/
theorem applyTexts_updated (texts : List String) (s : σ) (updated : Bool) :
    P.applyTexts texts (s, updated) =
      ((P.applyTexts texts (s, false)).1, updated || (P.applyTexts texts (s, false)).2) := by
  induction texts generalizing s updated with
  | nil => exact Prod.ext rfl (Bool.or_false updated).symm
  | cons text rest ih =>
    show P.applyTexts rest (P.applyText text (s, updated)) = _
    rw [applyText, ih]
    show _ = ((P.applyTexts rest (P.applyText text (s, false))).1,
      updated || (P.applyTexts rest (P.applyText text (s, false))).2)
    rw [applyText, ih _ (false || _)]
    simp only [Bool.false_or, Bool.or_assoc]

/-- A parser which was not updated is the one before. -/
theorem applyTexts_of_not_updated {texts : List String} {s : σ}
    (h : (P.applyTexts texts (s, false)).2 = false) : (P.applyTexts texts (s, false)).1 = s := by
  induction texts generalizing s with
  | nil => rfl
  | cons text rest ih =>
    have hhead : P.applyTexts (text :: rest) (s, false) =
        P.applyTexts rest (P.applyText text (s, false)) := rfl
    rw [hhead] at h ⊢
    unfold applyText at h ⊢
    cases happly : P.apply ⟨text, .epoch⟩ s with
    | none =>
      rw [happly] at h
      exact ih h
    | some s' =>
      rw [happly, applyTexts_updated] at h
      cases h

/-- Parsers with the same plain parts stay so. -/
theorem plain_applyTexts (texts : List String) {s s' : σ} (h : P.plain s = P.plain s')
    (updated : Bool) :
    P.plain (P.applyTexts texts (s, updated)).1 = P.plain (P.applyTexts texts (s', updated)).1 ∧
      (P.applyTexts texts (s, updated)).2 = (P.applyTexts texts (s', updated)).2 := by
  induction texts generalizing s s' updated with
  | nil => exact ⟨h, rfl⟩
  | cons text rest ih =>
    have hmaps : (P.apply ⟨text, .epoch⟩ s).map P.plain =
        (P.apply ⟨text, .epoch⟩ s').map P.plain := by
      rw [← (P.keeps _).plain, ← (P.keeps _).plain, h]
    show P.plain (P.applyTexts rest (P.applyText text (s, updated))).1 =
        P.plain (P.applyTexts rest (P.applyText text (s', updated))).1 ∧
      (P.applyTexts rest (P.applyText text (s, updated))).2 =
        (P.applyTexts rest (P.applyText text (s', updated))).2
    unfold applyText
    cases hs : P.apply ⟨text, .epoch⟩ s with
    | none =>
      cases hs' : P.apply ⟨text, .epoch⟩ s' with
      | none => exact ih h _
      | some => rw [hs, hs'] at hmaps; cases hmaps
    | some next =>
      cases hs' : P.apply ⟨text, .epoch⟩ s' with
      | none => rw [hs, hs'] at hmaps; cases hmaps
      | some next' =>
        rw [hs, hs'] at hmaps
        exact ih (Option.some.inj hmaps) _

theorem refresh_eq_of_plain {s s' : σ} (h : P.plain s = P.plain s') :
    P.refresh s = P.refresh s' := by
  rw [← P.refresh_plain s, h, P.refresh_plain]

/-- The parser after its file was read. -/
def readAll (P : LineParser σ) (content : List UInt8) (s : σ) : σ :=
  P.seek (complete content) (P.settle (P.applyTexts (texts content) (s, false)))

theorem reset_applyTexts (texts : List String) (s : σ) (updated : Bool) :
    P.reset (P.applyTexts texts (s, updated)).1 = P.reset s := by
  induction texts generalizing s updated with
  | nil => rfl
  | cons text rest ih =>
    have hhead : P.reset (P.applyText text (s, updated)).1 = P.reset s := by
      unfold applyText
      cases happly : P.apply ⟨text, .epoch⟩ s with
      | none => rfl
      | some s' => exact (P.keeps _).reset _ _ happly
    exact (ih _ _).trans hhead

theorem reset_readAll (content : List UInt8) (s : σ) :
    P.reset (P.readAll content s) = P.reset s := by
  unfold readAll settle
  rw [P.reset_seek]
  split
  · rw [P.reset_refresh, reset_applyTexts]
  · exact reset_applyTexts _ _ _

theorem offset_readAll (content : List UInt8) (s : σ) :
    P.offset (P.readAll content s) = complete content :=
  P.offset_seek _ _

theorem offset_of_reset {s : σ} (h : P.reset s = s) : P.offset s = 0 := by
  rw [← h, P.offset_reset]

theorem readAll_nil {s : σ} (h : P.reset s = s) : P.readAll [] s = s := by
  show P.seek 0 s = s
  rw [← offset_of_reset h, P.seek_offset]

/-- The parser at the start of a file reads all of it. -/
theorem parseToEnd_start {s : σ} (h : P.reset s = s) (clock : Nat → DateTime)
    {content : List UInt8} (hdated : ∀ text ∈ texts content, P.Dated text) :
    (P.parseToEnd clock content s).1 = P.readAll content s := by
  unfold parseToEnd
  simp only [offset_of_reset h, Nat.not_lt_zero, if_false, List.drop_zero]
  rw [parseLines_eq _ _ _ _ hdated, offset_of_reset h, Nat.zero_add, settle_seek, readAll]

/-! ### Growth -/

theorem drop_complete (content more : List UInt8) :
    (content ++ more).drop (complete content) = (splitLines 10 content).2 ++ more := by
  have hparts : content ++ more =
      (splitLines 10 content).1.flatten ++ ((splitLines 10 content).2 ++ more) := by
    rw [← List.append_assoc, flatten_append_splitLines]
  rw [hparts, complete, List.drop_left]

theorem complete_le (content : List UInt8) : complete content ≤ content.length := by
  have hlength := congrArg List.length (@flatten_append_splitLines _ _ 10 content)
  rw [List.length_append] at hlength
  rw [complete]
  omega

theorem texts_append (content more : List UInt8) :
    texts (content ++ more) = texts content ++ texts ((splitLines 10 content).2 ++ more) := by
  rw [texts, splitLines_append, List.filterMap_append, texts, texts]

theorem complete_append (content more : List UInt8) :
    complete (content ++ more) =
      complete content + complete ((splitLines 10 content).2 ++ more) := by
  rw [complete, splitLines_append, List.flatten_append, List.length_append, complete, complete]

/-- Parsing a file which has grown gives what reading all of it gives. -/
theorem parseToEnd_grown (s : σ) (clock : Nat → DateTime) (content more : List UInt8)
    (hdated : ∀ text ∈ texts (content ++ more), P.Dated text) :
    (P.parseToEnd clock (content ++ more) (P.readAll content s)).1 =
      P.readAll (content ++ more) s := by
  have hread : ¬(content ++ more).length < complete content := by
    have := complete_le content
    rw [List.length_append]
    omega
  rw [texts_append] at hdated
  have hrest : ∀ text ∈ texts ((splitLines 10 content).2 ++ more), P.Dated text :=
    fun text htext ↦ hdated text (List.mem_append_right _ htext)
  unfold parseToEnd
  simp only [offset_readAll, if_neg hread, drop_complete]
  rw [parseLines_eq _ _ _ _ hrest, offset_readAll, settle_seek, readAll, readAll,
    texts_append content more, applyTexts_append, complete_append content more, seek_applyTexts,
    settle_seek, P.seek_seek]
  congr 1
  generalize P.applyTexts (texts content) (s, false) = first
  obtain ⟨q, updated⟩ := first
  generalize texts ((splitLines 10 content).2 ++ more) = rest
  rw [applyTexts_updated rest q updated]
  -- the figures which the first call has derived do not reach what the second one derives
  have hplain : P.plain (P.settle (q, updated)) = P.plain q := by
    unfold settle
    split
    · exact P.plain_refresh q
    · rfl
  obtain ⟨hsame, hflag⟩ := plain_applyTexts rest hplain false
  cases hupdated : (P.applyTexts rest (q, false)).2 with
  | true =>
    have hleft : P.settle (P.applyTexts rest (P.settle (q, updated), false)) = P.refresh _ :=
      if_pos (hflag.trans hupdated)
    rw [hleft, Bool.or_true]
    exact refresh_eq_of_plain hsame
  | false =>
    rw [hupdated] at hflag
    have hleft : P.settle (P.applyTexts rest (P.settle (q, updated), false)) = _ :=
      if_neg (by rw [hflag]; exact Bool.false_ne_true)
    rw [hleft, Bool.or_false, applyTexts_of_not_updated hflag, applyTexts_of_not_updated hupdated]

/-- How a file may change between two calls: it grows, or it is replaced by one which is shorter
than what was read. -/
def Follows (before after : List UInt8) : Prop :=
  before <+: after ∨ after.length < complete before

theorem parseToEnd_follows {s : σ} (h : P.reset s = s) (clock : Nat → DateTime)
    {before after : List UInt8} (hfollows : Follows before after)
    (hdated : ∀ text ∈ texts after, P.Dated text) :
    (P.parseToEnd clock after (P.readAll before s)).1 = P.readAll after s := by
  rcases hfollows with ⟨more, rfl⟩ | hshorter
  · exact parseToEnd_grown s clock before more hdated
  · have hreset : P.parseToEnd clock after (P.readAll before s) = P.parseToEnd clock after s := by
      unfold parseToEnd
      simp only [offset_readAll, if_pos hshorter, reset_readAll, h, offset_of_reset h,
        Nat.not_lt_zero, if_false]
    rw [hreset, parseToEnd_start h clock hdated]

/-- After any number of calls, a parser is as if it had read the last content of its file at
once. -/
theorem foldl_parseToEnd {s : σ} (h : P.reset s = s)
    (calls : List ((Nat → DateTime) × List UInt8)) {before : List UInt8}
    (hchain : List.IsChain Follows (before :: calls.map Prod.snd))
    (hdated : ∀ call ∈ calls, ∀ text ∈ texts call.2, P.Dated text) :
    calls.foldl (fun s call ↦ (P.parseToEnd call.1 call.2 s).1) (P.readAll before s) =
      P.readAll (((calls.map Prod.snd).getLast?).getD before) s := by
  induction calls generalizing before with
  | nil => rfl
  | cons call calls ih =>
    rw [List.map_cons, List.isChain_cons_cons] at hchain
    rw [List.forall_mem_cons] at hdated
    rw [List.foldl_cons, parseToEnd_follows h call.1 hchain.1 hdated.1, ih hchain.2 hdated.2,
      List.map_cons, List.getLast?_cons, Option.getD_some]

/-- Calls of `parse_to_end` while a file grows, or is replaced by a shorter one, leave the parser
as one call on its last content does. -/
theorem parseToEnd_incremental {s : σ} (h : P.reset s = s)
    (calls : List ((Nat → DateTime) × List UInt8))
    (hchain : List.IsChain Follows (calls.map Prod.snd))
    (hdated : ∀ call ∈ calls, ∀ text ∈ texts call.2, P.Dated text)
    {content : List UInt8} (hlast : (calls.map Prod.snd).getLast? = some content)
    (clock : Nat → DateTime) :
    calls.foldl (fun s call ↦ (P.parseToEnd call.1 call.2 s).1) s =
      (P.parseToEnd clock content s).1 := by
  have hstart : List.IsChain Follows ([] :: calls.map Prod.snd) := by
    refine List.isChain_cons.mpr ⟨fun first _ ↦ .inl (List.nil_prefix), hchain⟩
  have hfinal : ∀ text ∈ texts content, P.Dated text := by
    obtain ⟨call, hcall, rfl⟩ := List.mem_map.mp (List.mem_of_getLast? hlast)
    exact hdated call hcall
  have hfold := foldl_parseToEnd h calls hstart hdated
  rw [readAll_nil h, hlast, Option.getD_some] at hfold
  rw [hfold, parseToEnd_start h clock hfinal]

/-! ### Files of complete lines -/

/-- The file with the given lines and part of another one. -/
def fileOf (lines : List String) (tail : List UInt8) : List UInt8 :=
  (lines.map fun line ↦ Text.utf8 line ++ [10]).flatten ++ tail

theorem fromUtf8_line (line : String) :
    Text.fromUtf8 (Text.utf8 line ++ [10]) = some (line ++ "\n") := by
  have hbytes : Text.utf8 line ++ [10] = Text.utf8 (line ++ "\n") := by
    simp [Text.utf8]
    rfl
  rw [hbytes, Text.fromUtf8_utf8]

theorem splitLines_fileOf {lines : List String} {tail : List UInt8}
    (hlines : ∀ line ∈ lines, 10 ∉ Text.utf8 line) (htail : 10 ∉ tail) :
    splitLines 10 (fileOf lines tail) = (lines.map fun line ↦ Text.utf8 line ++ [10], tail) := by
  refine splitLines_flatten_append (fun bytes hbytes ↦ ?_) htail
  obtain ⟨line, hline, rfl⟩ := List.mem_map.mp hbytes
  exact ⟨Text.utf8 line, rfl, hlines line hline⟩

theorem mem_texts_fileOf {lines : List String} {tail : List UInt8}
    (hlines : ∀ line ∈ lines, 10 ∉ Text.utf8 line) (htail : 10 ∉ tail) {text : String}
    (htext : text ∈ texts (fileOf lines tail)) :
    ∃ line ∈ lines, text = Text.trim (line ++ "\n") := by
  rw [texts, splitLines_fileOf hlines htail] at htext
  obtain ⟨bytes, hbytes, hread⟩ := List.mem_filterMap.mp htext
  obtain ⟨line, hline, rfl⟩ := List.mem_map.mp hbytes
  rw [lineText, fromUtf8_line] at hread
  exact ⟨line, hline, (Option.some.inj (Option.filter_eq_some_iff.mp hread).1).symm⟩

/-- A file which ends inside its second line, grows, and is replaced by that line. -/
def grownFiles (line next : String) (part : Nat) : List (List UInt8) :=
  [fileOf [line] ((Text.utf8 next).take part), fileOf [line, next] [], fileOf [next] []]

theorem isChain_grownFiles {line next : String} (part : Nat) (hline : 10 ∉ Text.utf8 line)
    (hnext : 10 ∉ Text.utf8 next) : List.IsChain Follows (grownFiles line next part) := by
  have hcomplete : complete (fileOf [line, next] []) =
      ([line, next].map fun line ↦ Text.utf8 line ++ [10]).flatten.length := by
    rw [complete, splitLines_fileOf (List.forall_mem_cons.mpr
      ⟨hline, List.forall_mem_singleton.mpr hnext⟩) List.not_mem_nil]
  refine List.isChain_cons_cons.mpr ⟨.inl ?_, List.isChain_cons_cons.mpr
    ⟨.inr ?_, List.isChain_singleton _⟩⟩
  · unfold fileOf
    simp only [List.map_cons, List.map_nil, List.flatten_cons, List.flatten_nil, List.append_nil]
    rw [List.prefix_append_right_inj]
    exact (List.take_prefix _ _).trans (List.prefix_append _ _)
  · rw [hcomplete]
    simp only [fileOf, List.map_cons, List.map_nil, List.flatten_cons, List.flatten_nil,
      List.append_nil, List.length_append, List.length_singleton]
    omega

end LineParser

end AgentOdometer.Parser
