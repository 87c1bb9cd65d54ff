import AgentOdometer.Transcript.ScanInvariant

/-!
# Record ids

The id of a record names its source, where it starts, and a hash (`transcript.rs:676–684`). Its
parts are read back from it, and it is no longer than a request may name (`transcript.rs:520–535`).
-/

namespace AgentOdometer.Transcript

open Text Lines

variable {V P C : Type} {json : Json V P C} {source : Source} {pos : Nat} {line : List UInt8}

theorem rsplitOnce_append {body tail : List Char} (h : ':' ∉ tail) :
    rsplitOnce ':' (body ++ ':' :: tail) = some (tail, body) := by
  have hdrop : (body ++ ':' :: tail).drop (body.length + 1) = tail := by
    rw [List.append_cons, List.drop_left' (by simp)]
  rw [rsplitOnce, lastIndex_append h, Option.map_some, List.take_left, hdrop]

theorem parseU64_toString {n : Nat} (h : n < 2 ^ 64) : parseU64 (toString n) = some n := by
  have hdigits : (toString n).toList = Nat.toDigits 10 n := Nat.toList_repr
  have hdigit : ∀ c ∈ Nat.toDigits 10 n, c.isDigit = true := fun c hc ↦
    Nat.isDigit_of_mem_toDigits (by decide) (by decide) hc
  have hplus : (Nat.toDigits 10 n).head? ≠ some '+' := by
    intro hhead
    have := hdigit '+' (List.mem_of_mem_head? hhead)
    revert this
    decide
  have hvalue : (Nat.toDigits 10 n).foldl (fun n c ↦ n * 10 + (c.toNat - '0'.toNat)) 0 = n := by
    have := Nat.ofDigitChars_ten_toDigits (n := n)
    rw [Nat.ofDigitChars_eq_foldl] at this
    simpa only [Nat.mul_comm 10] using this
  rw [parseU64, hdigits, if_neg hplus]
  simp only [hvalue]
  rw [if_neg]
  simp only [Bool.or_eq_true, decide_eq_true_eq, List.any_eq_true, not_or, not_exists, not_and,
    Nat.not_le]
  refine ⟨⟨?_, fun c hc ↦ ?_⟩, h⟩
  · rw [List.isEmpty_iff]
    exact Nat.toDigits_ne_nil
  · rw [hdigit c hc]
    decide

theorem isDigit_colon {c : Char} (h : c.isDigit = true) : c ≠ ':' := by
  rintro rfl
  revert h
  decide

theorem colon_notMem_hexDigits (digits n : Nat) : ':' ∉ hexDigits digits n := by
  induction digits generalizing n with
  | zero => exact List.not_mem_nil
  | succ digits ih =>
    rw [hexDigits, List.mem_append, not_or, List.mem_singleton]
    refine ⟨ih _, ?_⟩
    have hdigit : ∀ d < 16, ':' ≠ Nat.digitChar d := by decide
    exact hdigit _ (Nat.mod_lt _ (by decide))

/-- The id of a record. Follows `transcript.rs:680`. -/
def recordId (source : Source) (start hash : Nat) : String :=
  source.sourceId ++ ":" ++ source.identity ++ ":" ++ toString start ++ ":" ++
    String.ofList (hexDigits 16 hash)

/-- The parts of an id are read back from it. -/
theorem anchorParts_recordId (source : Source) (start hash : Nat) :
    anchorParts (recordId source start hash) =
      some (source.sourceId ++ ":" ++ source.identity, toString start) := by
  have hstart : ':' ∉ (toString start).toList := by
    intro hin
    rw [show (toString start).toList = Nat.toDigits 10 start from Nat.toList_repr] at hin
    exact isDigit_colon (Nat.isDigit_of_mem_toDigits (by decide) (by decide) hin) rfl
  have hwhole : (recordId source start hash).toList =
      ((source.sourceId ++ ":" ++ source.identity).toList ++ ':' :: (toString start).toList) ++
        ':' :: hexDigits 16 hash := by
    simp [recordId]
  rw [anchorParts, hwhole, rsplitOnce_append (colon_notMem_hexDigits 16 hash), Option.bind_some,
    rsplitOnce_append hstart, Option.map_some, String.ofList_toList, String.ofList_toList]

theorem utf8ByteSize_ofList_of_ascii {text : List Char} (h : ∀ c ∈ text, c.utf8Size = 1) :
    (String.ofList text).utf8ByteSize = text.length := by
  induction text with
  | nil => rw [String.ofList_nil, String.utf8ByteSize_empty, List.length_nil]
  | cons c text ih =>
    rw [List.forall_mem_cons] at h
    rw [← List.singleton_append, String.ofList_append, String.utf8ByteSize_append, ih h.2,
      ← String.singleton_eq_ofList, String.utf8ByteSize_singleton, h.1, List.length_append,
      List.length_singleton]

theorem utf8Size_digitChar : ∀ d < 16, (Nat.digitChar d).utf8Size = 1 := by decide

theorem utf8ByteSize_hexDigits (digits n : Nat) :
    (String.ofList (hexDigits digits n)).utf8ByteSize = digits := by
  induction digits generalizing n with
  | zero => rfl
  | succ digits ih =>
    rw [hexDigits, String.ofList_append, String.utf8ByteSize_append, ih,
      utf8ByteSize_ofList_of_ascii (by
        intro c hc
        rw [List.mem_singleton.mp hc]
        exact utf8Size_digitChar _ (Nat.mod_lt _ (by decide))), List.length_singleton]

theorem utf8ByteSize_toString_le {n : Nat} (h : n < 2 ^ 64) : (toString n).utf8ByteSize ≤ 20 := by
  have hascii : ∀ c ∈ Nat.toDigits 10 n, c.utf8Size = 1 := by
    intro c hc
    have hdigit := Nat.isDigit_of_mem_toDigits (by decide) (by decide) hc
    refine Char.utf8Size_eq_one_iff.mpr ?_
    simp only [Char.isDigit, Bool.and_eq_true, decide_eq_true_eq] at hdigit
    exact UInt32.le_trans hdigit.2 (by decide)
  have hlength : (Nat.toDigits 10 n).length ≤ 20 :=
    (Nat.length_toDigits_le_iff (by decide) (by decide)).mpr (by omega)
  rw [Nat.toString_eq_ofList_toDigits, utf8ByteSize_ofList_of_ascii hascii]
  exact hlength

/-- A source as it is opened for a read: its length is a `u64`, its ids are short. -/
structure Source.Opened (source : Source) : Prop where
  size : source.bytes.length < 2 ^ 64
  ids : source.sourceId.utf8ByteSize + source.identity.utf8ByteSize ≤ 985

theorem Source.Opened.recordId_le (h : source.Opened) {start : Nat}
    (hstart : start ≤ source.bytes.length) (hash : Nat) :
    (recordId source start hash).utf8ByteSize ≤ 1024 := by
  have hsize := utf8ByteSize_toString_le (Nat.lt_of_le_of_lt hstart h.size)
  have hids := h.ids
  have hcolon : (":" : String).utf8ByteSize = 1 := rfl
  rw [recordId]
  simp only [String.utf8ByteSize_append, utf8ByteSize_hexDigits, hcolon]
  omega

/-- The id of a record names the text it was read with, or else the generation. -/
theorem id_transcriptRecord (oversized : Bool) :
    (transcriptRecord json source pos (pos + line.length) line oversized).id =
      recordId source pos (fnv1a64 (utf8 ((if oversized then none
        else (readJson json line).map Prod.fst).getD source.generation))) := by
  have hraw : (transcriptRecord json source pos (pos + line.length) line oversized).rawJson =
      if oversized then none else (readJson json line).map Prod.fst :=
    rawJson_transcriptRecord
  rw [← hraw]
  rfl

theorem lt_length_of_isLine (hline : IsLine lineFeed line)
    (hpart : line <+: source.bytes.drop pos) : pos < source.bytes.length := by
  have hle := hpart.length_le
  have hne := List.length_pos_iff.mpr hline.ne_nil
  rw [List.length_drop] at hle
  omega

/-- The id of the record of a line is no longer than an id which a request may name. -/
theorem Source.Opened.id_le (h : source.Opened) (json : Json V P C) (hline : IsLine lineFeed line)
    (hpart : line <+: source.bytes.drop pos) (oversized : Bool) :
    (transcriptRecord json source pos (pos + line.length) line oversized).id.utf8ByteSize ≤
      1024 := by
  rw [id_transcriptRecord]
  exact h.recordId_le (lt_length_of_isLine hline hpart).le _

end AgentOdometer.Transcript
