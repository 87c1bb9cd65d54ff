import Mathlib.Data.List.Basic

/-!
# Comma separated text

A field is quoted when it holds a comma, a quote or a line break, and a quote in it is doubled.
The reader takes complete rows; it inverts the writer.
-/

namespace AgentOdometer.CsvText

/-- The characters for which a field is quoted. -/
def isSpecial (c : Char) : Bool :=
  c == ',' || c == '"' || c == '\r' || c == '\n'

/-- The characters of a quoted field, each quote doubled. -/
def doubleQuotes (cs : List Char) : List Char :=
  cs.flatMap fun c ↦ if c = '"' then ['"', '"'] else [c]

/-- A field as it is written. -/
def quoteField (cs : List Char) : List Char :=
  if cs.any isSpecial then '"' :: doubleQuotes cs ++ ['"'] else cs

/-- A row as it is written. -/
def writeRow : List (List Char) → List Char
  | [] => ['\n']
  | [field] => quoteField field ++ ['\n']
  | field :: fields => quoteField field ++ ',' :: writeRow fields

/-- Where a reader is: outside quotes, inside them, or after a quote which may close them. -/
inductive Mode where
  | plain
  | quoted
  | closing
deriving Repr, DecidableEq

/-- The complete rows of a text, read from inside a field and a row. -/
def readRows : Mode → List Char → List (List Char) → List Char → List (List (List Char))
  | _, _, _, [] => []
  | .quoted, field, row, c :: cs =>
      if c = '"' then readRows .closing field row cs else readRows .quoted (field ++ [c]) row cs
  | mode, field, row, c :: cs =>
      if c = ',' then readRows .plain [] (row ++ [field]) cs
      else if c = '\n' then (row ++ [field]) :: readRows .plain [] [] cs
      else if c = '"' then
        if mode = .closing then readRows .quoted (field ++ [c]) row cs
        else readRows .quoted field row cs
      else readRows .plain (field ++ [c]) row cs

theorem readRows_open (row : List (List Char)) (cs : List Char) :
    readRows .plain [] row ('"' :: cs) = readRows .quoted [] row cs := by
  simp [readRows]

theorem readRows_quoted (field : List Char) (row : List (List Char)) (cs rest : List Char) :
    readRows .quoted field row (doubleQuotes cs ++ '"' :: rest) =
      readRows .closing (field ++ cs) row rest := by
  induction cs generalizing field with
  | nil => simp [doubleQuotes, readRows]
  | cons c cs ih =>
    have hcons : field ++ c :: cs = (field ++ [c]) ++ cs := by simp
    rw [hcons, ← ih (field ++ [c])]
    by_cases hc : c = '"'
    · subst hc
      simp [doubleQuotes, readRows]
    · simp [doubleQuotes, readRows, hc]

theorem readRows_plain (field : List Char) (row : List (List Char)) {cs : List Char}
    (hcs : cs.any isSpecial = false) (rest : List Char) :
    readRows .plain field row (cs ++ rest) = readRows .plain (field ++ cs) row rest := by
  induction cs generalizing field with
  | nil => simp
  | cons c cs ih =>
    rw [List.any_cons, Bool.or_eq_false_iff] at hcs
    have hcons : field ++ c :: cs = (field ++ [c]) ++ cs := by simp
    rw [hcons, ← ih (field ++ [c]) hcs.2]
    have hc := hcs.1
    simp only [isSpecial, Bool.or_eq_false_iff, beq_eq_false_iff_ne] at hc
    simp [readRows, hc]

/-- A written field is read up to the comma after it. -/
theorem readRows_field_comma (field : List Char) (row : List (List Char)) (rest : List Char) :
    readRows .plain [] row (quoteField field ++ ',' :: rest) =
      readRows .plain [] (row ++ [field]) rest := by
  unfold quoteField
  split
  · have hquoted := readRows_quoted [] row field (',' :: rest)
    simp only [List.cons_append, List.append_assoc, List.nil_append] at hquoted ⊢
    rw [readRows_open, hquoted]
    simp [readRows]
  · rename_i hplain
    rw [readRows_plain _ _ (Bool.not_eq_true _ ▸ hplain)]
    simp [readRows]

/-- A written field is read up to the line break after it. -/
theorem readRows_field_newline (field : List Char) (row : List (List Char)) (rest : List Char) :
    readRows .plain [] row (quoteField field ++ '\n' :: rest) =
      (row ++ [field]) :: readRows .plain [] [] rest := by
  unfold quoteField
  split
  · have hquoted := readRows_quoted [] row field ('\n' :: rest)
    simp only [List.cons_append, List.append_assoc, List.nil_append] at hquoted ⊢
    rw [readRows_open, hquoted]
    simp [readRows]
  · rename_i hplain
    rw [readRows_plain _ _ (Bool.not_eq_true _ ▸ hplain)]
    simp [readRows]

/-- A written row is read back. -/
theorem readRows_writeRow (row : List (List Char)) {fields : List (List Char)} (h : fields ≠ [])
    (rest : List Char) : readRows .plain [] row (writeRow fields ++ rest) =
      (row ++ fields) :: readRows .plain [] [] rest := by
  induction fields generalizing row with
  | nil => exact absurd rfl h
  | cons field fields ih =>
    cases fields with
    | nil =>
      rw [writeRow, List.append_assoc, List.singleton_append, readRows_field_newline]
    | cons next fields =>
      rw [writeRow, List.append_assoc, List.cons_append, readRows_field_comma,
        ih _ (List.cons_ne_nil _ _), List.append_assoc, List.singleton_append]
      exact fun hnil ↦ List.cons_ne_nil _ _ hnil

/-- Written rows are read back. -/
theorem readRows_writeRows {rows : List (List (List Char))} (h : ∀ row ∈ rows, row ≠ []) :
    readRows .plain [] [] (rows.flatMap writeRow) = rows := by
  induction rows with
  | nil => rfl
  | cons row rows ih =>
    rw [List.forall_mem_cons] at h
    rw [List.flatMap_cons, readRows_writeRow [] h.1, ih h.2, List.nil_append]

end AgentOdometer.CsvText
