import Mathlib.Data.List.Chain

/-!
# Lines of a sequence

A sequence read up to a separator, as `read_until` reads it, and its division into lines which
end with the separator and a tail without one.
-/

namespace AgentOdometer.Lines

variable {α : Type} [DecidableEq α] {sep : α} {xs ys body rest tail : List α}

/-- The elements up to and including the first separator, or all of them. -/
def readUntil (sep : α) : List α → List α
  | [] => []
  | x :: xs => if x = sep then [x] else x :: readUntil sep xs

/-- The complete lines, each with its separator, and the tail without one. -/
def splitLines (sep : α) : List α → List (List α) × List α
  | [] => ([], [])
  | x :: xs =>
      if x = sep then ([x] :: (splitLines sep xs).1, (splitLines sep xs).2)
      else
        match (splitLines sep xs).1 with
        | [] => ([], x :: (splitLines sep xs).2)
        | line :: lines => ((x :: line) :: lines, (splitLines sep xs).2)

/-- A line: its separator is its last element and its only one. -/
def IsLine (sep : α) (line : List α) : Prop :=
  ∃ body, line = body ++ [sep] ∧ sep ∉ body

/-- The position of the last separator, as `rposition` finds it. -/
def lastIndex (sep : α) : List α → Option Nat
  | [] => none
  | x :: xs =>
      match lastIndex sep xs with
      | some index => some (index + 1)
      | none => if x = sep then some 0 else none

/-- The elements from position `i` to position `j`. -/
def between (xs : List α) (i j : Nat) : List α :=
  (xs.drop i).take (j - i)

/-! ### Parts of a sequence -/

section Between

omit [DecidableEq α]

variable {i j k : Nat}

theorem between_self (xs : List α) (i : Nat) : between xs i i = [] := by
  rw [between, Nat.sub_self, List.take_zero]

theorem length_between (hj : j ≤ xs.length) : (between xs i j).length = j - i := by
  rw [between, List.length_take, List.length_drop]
  omega

theorem between_append (hij : i ≤ j) (hjk : j ≤ k) :
    between xs i j ++ between xs j k = between xs i k := by
  have hsplit : k - i = (j - i) + (k - j) := by omega
  have hdrop : xs.drop j = (xs.drop i).drop (j - i) := by
    rw [List.drop_drop]
    congr 1
    omega
  rw [between, between, between, hdrop, hsplit, List.take_add]

theorem between_of_isPrefix {part : List α} (hpart : part <+: xs.drop i) :
    between xs i (i + part.length) = part := by
  rw [between, Nat.add_sub_cancel_left]
  exact (List.prefix_iff_eq_take.mp hpart).symm

/-- What is read next extends the part before it. -/
theorem between_append_part {part : List α} (hij : i ≤ j) (hpart : part <+: xs.drop j) :
    between xs i j ++ part = between xs i (j + part.length) := by
  calc between xs i j ++ part = between xs i j ++ between xs j (j + part.length) := by
        rw [between_of_isPrefix hpart]
    _ = between xs i (j + part.length) := between_append hij (Nat.le_add_right j _)

theorem between_append_drop (xs : List α) (hij : i ≤ j) :
    between xs i j ++ xs.drop j = xs.drop i := by
  have hdrop : xs.drop j = (xs.drop i).drop (j - i) := by
    rw [List.drop_drop]
    congr 1
    omega
  rw [between, hdrop, List.take_append_drop]

end Between

/-! ### The last separator -/

theorem lastIndex_of_notMem (h : sep ∉ xs) : lastIndex sep xs = none := by
  induction xs with
  | nil => rfl
  | cons x xs ih =>
    rw [List.mem_cons, not_or] at h
    rw [lastIndex, ih h.2]
    exact if_neg (Ne.symm h.1)

/-- The last separator stands inside the sequence. -/
theorem lt_of_lastIndex {index : Nat} (h : lastIndex sep xs = some index) :
    index < xs.length := by
  induction xs generalizing index with
  | nil => cases h
  | cons x xs ih =>
    rw [lastIndex] at h
    rw [List.length_cons]
    cases hlast : lastIndex sep xs with
    | none =>
      rw [hlast] at h
      by_cases hx : x = sep
      · simp only [if_pos hx, Option.some.injEq] at h
        omega
      · simp only [if_neg hx, reduceCtorEq] at h
    | some last =>
      have hlt := ih hlast
      simp only [hlast, Option.some.injEq] at h
      omega

theorem lastIndex_append (h : sep ∉ tail) :
    lastIndex sep (body ++ sep :: tail) = some body.length := by
  induction body with
  | nil =>
    rw [List.nil_append, lastIndex, lastIndex_of_notMem h]
    exact if_pos rfl
  | cons x body ih => rw [List.cons_append, lastIndex, ih, List.length_cons]

/-! ### Reading up to the separator -/

theorem readUntil_of_notMem (h : sep ∉ xs) : readUntil sep xs = xs := by
  induction xs with
  | nil => rfl
  | cons x xs ih =>
    rw [List.mem_cons, not_or] at h
    rw [readUntil, if_neg (Ne.symm h.1), ih h.2]

theorem readUntil_append (h : sep ∉ body) :
    readUntil sep (body ++ sep :: rest) = body ++ [sep] := by
  induction body with
  | nil => simp [readUntil]
  | cons x body ih =>
    rw [List.mem_cons, not_or] at h
    rw [List.cons_append, readUntil, if_neg (Ne.symm h.1), ih h.2, List.cons_append]

theorem readUntil_isLine_append {line : List α} (h : IsLine sep line) :
    readUntil sep (line ++ rest) = line := by
  obtain ⟨body, rfl, hbody⟩ := h
  rw [List.append_assoc]
  exact readUntil_append hbody

theorem readUntil_isPrefix (xs : List α) : readUntil sep xs <+: xs := by
  induction xs with
  | nil => exact List.prefix_refl []
  | cons x xs ih =>
    unfold readUntil
    split
    · exact List.prefix_append [x] xs
    · exact List.cons_prefix_cons.mpr ⟨rfl, ih⟩

theorem length_readUntil_le (xs : List α) : (readUntil sep xs).length ≤ xs.length :=
  (readUntil_isPrefix xs).length_le

theorem readUntil_eq_nil_iff : readUntil sep xs = [] ↔ xs = [] := by
  cases xs with
  | nil => exact Iff.rfl
  | cons x xs =>
    unfold readUntil
    split <;> simp

/-- What follows the part which was read. -/
theorem readUntil_append_drop (xs : List α) :
    readUntil sep xs ++ xs.drop (readUntil sep xs).length = xs :=
  List.prefix_iff_eq_append.mp (readUntil_isPrefix xs)

/-- Reading something from the start of a sequence leaves a shorter one. -/
theorem length_drop_readUntil_lt {n : Nat} (h : readUntil sep (xs.take n) ≠ []) :
    (xs.drop (readUntil sep (xs.take n)).length).length < xs.length := by
  have hread : 0 < (readUntil sep (xs.take n)).length := List.length_pos_iff.mpr h
  have hle : (readUntil sep (xs.take n)).length ≤ (xs.take n).length := length_readUntil_le _
  rw [List.length_take] at hle
  rw [List.length_drop]
  omega

/-- What was read is a line, or everything and without a separator. -/
theorem readUntil_cases (xs : List α) :
    IsLine sep (readUntil sep xs) ∨ (readUntil sep xs = xs ∧ sep ∉ xs) := by
  induction xs with
  | nil => exact .inr ⟨rfl, List.not_mem_nil⟩
  | cons x xs ih =>
    unfold readUntil
    by_cases hx : x = sep
    · rw [if_pos hx, hx]
      exact .inl ⟨[], rfl, List.not_mem_nil⟩
    · rw [if_neg hx]
      rcases ih with ⟨body, hread, hbody⟩ | ⟨hread, hmem⟩
      · refine .inl ⟨x :: body, by rw [hread, List.cons_append], ?_⟩
        exact List.not_mem_cons_of_ne_of_not_mem (Ne.symm hx) hbody
      · exact .inr ⟨by rw [hread], List.not_mem_cons_of_ne_of_not_mem (Ne.symm hx) hmem⟩

/-- A first part of what was read is a line or is inside one. -/
theorem part_of_readUntil {part : List α} (h : part <+: readUntil sep xs) :
    (part.getLast? = some sep → IsLine sep part) ∧ (part.getLast? ≠ some sep → sep ∉ part) := by
  have hcases : IsLine sep (readUntil sep xs) ∨ (readUntil sep xs = xs ∧ sep ∉ xs) :=
    readUntil_cases xs
  rcases hcases with ⟨body, hread, hbody⟩ | ⟨hread, hmem⟩
  · rw [hread, List.prefix_concat_iff] at h
    rcases h with rfl | hpart
    · exact ⟨fun _ ↦ ⟨body, rfl, hbody⟩, fun hlast ↦ absurd List.getLast?_concat hlast⟩
    · have hnot : sep ∉ part := fun hsep ↦ hbody (hpart.subset hsep)
      exact ⟨fun hlast ↦ absurd (List.mem_of_getLast? hlast) hnot, fun _ ↦ hnot⟩
  · rw [hread] at h
    have hnot : sep ∉ part := fun hsep ↦ hmem (h.subset hsep)
    exact ⟨fun hlast ↦ absurd (List.mem_of_getLast? hlast) hnot, fun _ ↦ hnot⟩

omit [DecidableEq α] in
theorem IsLine.ne_nil {line : List α} (h : IsLine sep line) : line ≠ [] := by
  obtain ⟨body, rfl, -⟩ := h
  exact List.append_ne_nil_of_right_ne_nil body (List.cons_ne_nil sep [])

omit [DecidableEq α] in
theorem IsLine.getLast? {line : List α} (h : IsLine sep line) : line.getLast? = some sep := by
  obtain ⟨body, rfl, -⟩ := h
  exact List.getLast?_concat

/-- What was read ends with the separator exactly when there is one. -/
theorem getLast?_readUntil_eq_iff : (readUntil sep xs).getLast? = some sep ↔ sep ∈ xs := by
  constructor
  · intro h
    exact (readUntil_isPrefix xs).subset (List.mem_of_getLast? h)
  · intro h
    rcases readUntil_cases xs with hline | ⟨-, hmem⟩
    · exact hline.getLast?
    · exact absurd h hmem

/-! ### Lines and tail -/

theorem splitLines_of_notMem (h : sep ∉ xs) : splitLines sep xs = ([], xs) := by
  induction xs with
  | nil => rfl
  | cons x xs ih =>
    rw [List.mem_cons, not_or] at h
    rw [splitLines, if_neg (Ne.symm h.1), ih h.2]

theorem splitLines_isLine_append {line : List α} (h : IsLine sep line) :
    splitLines sep (line ++ rest) =
      (line :: (splitLines sep rest).1, (splitLines sep rest).2) := by
  obtain ⟨body, rfl, hbody⟩ := h
  induction body with
  | nil => simp [splitLines]
  | cons x body ih =>
    rw [List.mem_cons, not_or] at hbody
    have hrest := ih hbody.2
    rw [List.cons_append, List.cons_append, splitLines, if_neg (Ne.symm hbody.1), hrest]

/-- The lines and the tail of a sequence made of them. -/
theorem splitLines_flatten_append {lines : List (List α)} (hlines : ∀ line ∈ lines, IsLine sep line)
    (htail : sep ∉ tail) : splitLines sep (lines.flatten ++ tail) = (lines, tail) := by
  induction lines with
  | nil => exact splitLines_of_notMem htail
  | cons line lines ih =>
    rw [List.flatten_cons, List.append_assoc,
      splitLines_isLine_append (hlines line List.mem_cons_self),
      ih fun other hother ↦ hlines other (List.mem_cons_of_mem line hother)]

/-- Every sequence is made of lines and a tail. -/
theorem exists_lines (sep : α) (xs : List α) : ∃ (lines : List (List α)) (tail : List α),
    xs = lines.flatten ++ tail ∧ (∀ line ∈ lines, IsLine sep line) ∧ sep ∉ tail := by
  induction xs with
  | nil => exact ⟨[], [], rfl, (fun _ h ↦ nomatch h), List.not_mem_nil⟩
  | cons x xs ih =>
    obtain ⟨lines, tail, rfl, hlines, htail⟩ := ih
    by_cases hx : x = sep
    · refine ⟨[x] :: lines, tail, rfl, ?_, htail⟩
      rw [List.forall_mem_cons]
      exact ⟨⟨[], by rw [hx]; rfl, List.not_mem_nil⟩, hlines⟩
    · cases lines with
      | nil =>
        exact ⟨[], x :: tail, rfl, hlines,
          List.not_mem_cons_of_ne_of_not_mem (Ne.symm hx) htail⟩
      | cons line lines =>
        rw [List.forall_mem_cons] at hlines
        obtain ⟨⟨body, rfl, hbody⟩, hlines⟩ := hlines
        refine ⟨(x :: body ++ [sep]) :: lines, tail, rfl, ?_, htail⟩
        rw [List.forall_mem_cons]
        exact ⟨⟨x :: body, rfl, List.not_mem_cons_of_ne_of_not_mem (Ne.symm hx) hbody⟩, hlines⟩

theorem flatten_append_splitLines (xs : List α) :
    (splitLines sep xs).1.flatten ++ (splitLines sep xs).2 = xs := by
  obtain ⟨lines, tail, rfl, hlines, htail⟩ := exists_lines sep xs
  rw [splitLines_flatten_append hlines htail]

theorem isLine_of_mem_splitLines {line : List α} (h : line ∈ (splitLines sep xs).1) :
    IsLine sep line := by
  obtain ⟨lines, tail, rfl, hlines, htail⟩ := exists_lines sep xs
  rw [splitLines_flatten_append hlines htail] at h
  exact hlines line h

theorem notMem_tail (xs : List α) : sep ∉ (splitLines sep xs).2 := by
  obtain ⟨lines, tail, rfl, hlines, htail⟩ := exists_lines sep xs
  rw [splitLines_flatten_append hlines htail]
  exact htail

/-- Growth adds the lines of the tail and the new part. -/
theorem splitLines_append (xs ys : List α) :
    splitLines sep (xs ++ ys) =
      ((splitLines sep xs).1 ++ (splitLines sep ((splitLines sep xs).2 ++ ys)).1,
        (splitLines sep ((splitLines sep xs).2 ++ ys)).2) := by
  obtain ⟨lines, tail, rfl, hlines, htail⟩ := exists_lines sep xs
  rw [splitLines_flatten_append hlines htail]
  obtain ⟨lines', tail', hsplit, hlines', htail'⟩ := exists_lines sep (tail ++ ys)
  rw [List.append_assoc, hsplit, splitLines_flatten_append hlines' htail', ← List.append_assoc,
    ← List.flatten_append, splitLines_flatten_append _ htail']
  intro line hline
  rcases List.mem_append.mp hline with hline | hline
  · exact hlines line hline
  · exact hlines' line hline

/-! ### Items which tile a sequence -/

section Tiles

variable {β : Type} {R S : Nat → List α → β → Prop} {items items' : List β} {lo mid hi : Nat}

/-- One item for each line from position `lo` to position `hi`, each in the relation `R` with
its position and its line. -/
inductive Tiles (sep : α) (xs : List α) (R : Nat → List α → β → Prop) (lo : Nat) :
    List β → Nat → Prop
  | nil : Tiles sep xs R lo [] lo
  | snoc {mid : Nat} {items : List β} {item : β} {line : List α}
      (htiles : Tiles sep xs R lo items mid) (hline : IsLine sep line)
      (hpart : line <+: xs.drop mid) (hitem : R mid line item) :
      Tiles sep xs R lo (items ++ [item]) (mid + line.length)

omit [DecidableEq α]

theorem Tiles.append (h : Tiles sep xs R lo items mid) (h' : Tiles sep xs R mid items' hi) :
    Tiles sep xs R lo (items ++ items') hi := by
  induction h' with
  | nil => rwa [List.append_nil]
  | snoc _ hline hpart hitem ih =>
    rw [← List.append_assoc]
    exact .snoc ih hline hpart hitem

theorem Tiles.mono (h : Tiles sep xs R lo items hi)
    (himp : ∀ pos line item, item ∈ items → R pos line item → S pos line item) :
    Tiles sep xs S lo items hi := by
  induction h with
  | nil => exact .nil
  | snoc htiles hline hpart hitem ih =>
    refine .snoc (ih fun pos line item hmem ↦ ?_) hline hpart ?_
    · exact himp pos line item (List.mem_append_left _ hmem)
    · exact himp _ _ _ (List.mem_append_right _ List.mem_cons_self) hitem

theorem Tiles.le (h : Tiles sep xs R lo items hi) : lo ≤ hi := by
  induction h with
  | nil => exact Nat.le_refl lo
  | snoc _ _ _ _ ih => omega

theorem Tiles.lt (h : Tiles sep xs R lo items hi) (hitems : items ≠ []) : lo < hi := by
  cases h with
  | nil => exact absurd rfl hitems
  | snoc htiles hline hpart hitem =>
    have hle := htiles.le
    have hpos := List.length_pos_iff.mpr hline.ne_nil
    omega

theorem Tiles.eq_of_nil (h : Tiles sep xs R lo [] hi) : hi = lo := by
  generalize hitems : ([] : List β) = items at h
  cases h with
  | nil => rfl
  | snoc => exact absurd hitems.symm (List.append_ne_nil_of_right_ne_nil _ (List.cons_ne_nil _ _))

/-- The last item ends after a separator. -/
theorem Tiles.getElem?_pred (h : Tiles sep xs R lo items hi) (hitems : items ≠ []) :
    xs[hi - 1]? = some sep := by
  cases h with
  | nil => exact absurd rfl hitems
  | @snoc mid items item line htiles hline hpart hitem =>
    obtain ⟨body, rfl, -⟩ := hline
    obtain ⟨rest, hrest⟩ := hpart
    have hlast : (xs.drop mid)[body.length]? = some sep := by
      rw [← hrest, List.append_assoc, List.getElem?_append_right (Nat.le_refl _)]
      simp
    rw [List.getElem?_drop] at hlast
    rw [List.length_append, List.length_singleton, ← Nat.add_assoc, Nat.add_sub_cancel]
    exact hlast

/-- Every item belongs to a line which starts where the items do, or after a separator. -/
theorem Tiles.exists_boundary_of_mem (h : Tiles sep xs R lo items hi) {item : β}
    (hmem : item ∈ items) : ∃ pos line, (pos = lo ∨ xs[pos - 1]? = some sep) ∧ IsLine sep line ∧
      line <+: xs.drop pos ∧ R pos line item := by
  induction h with
  | nil => cases hmem
  | @snoc mid items other line htiles hline hpart hitem ih =>
    rcases List.mem_append.mp hmem with hmem | hmem
    · exact ih hmem
    · obtain rfl := List.mem_singleton.mp hmem
      refine ⟨mid, line, ?_, hline, hpart, hitem⟩
      by_cases hitems : items = []
      · subst hitems
        exact .inl htiles.eq_of_nil
      · exact .inr (htiles.getElem?_pred hitems)

/-- Every item belongs to a line of the sequence. -/
theorem Tiles.exists_of_mem (h : Tiles sep xs R lo items hi) {item : β} (hmem : item ∈ items) :
    ∃ pos line, lo ≤ pos ∧ IsLine sep line ∧ line <+: xs.drop pos ∧ R pos line item := by
  induction h with
  | nil => cases hmem
  | @snoc mid items other line htiles hline hpart hitem ih =>
    rcases List.mem_append.mp hmem with hmem | hmem
    · exact ih hmem
    · rw [List.mem_singleton] at hmem
      subst hmem
      exact ⟨mid, line, htiles.le, hline, hpart, hitem⟩

/-- The first item belongs to the first line. -/
theorem Tiles.head (h : Tiles sep xs R lo items hi) (hitems : items ≠ []) :
    ∃ item ∈ items, ∃ line, IsLine sep line ∧ line <+: xs.drop lo ∧ R lo line item := by
  induction h with
  | nil => exact absurd rfl hitems
  | @snoc mid items other line htiles hline hpart hitem ih =>
    by_cases hfirst : items = []
    · subst hfirst
      obtain rfl := htiles.eq_of_nil
      exact ⟨other, List.mem_append_right _ List.mem_cons_self, line, hline, hpart, hitem⟩
    · obtain ⟨item, hmem, hrest⟩ := ih hfirst
      exact ⟨item, List.mem_append_left _ hmem, hrest⟩

/-- The lines behind the items. -/
theorem Tiles.exists_lines (h : Tiles sep xs R lo items hi) {text : β → List α}
    (htext : ∀ pos line item, item ∈ items → line <+: xs.drop pos → R pos line item →
      text item = line) :
    between xs lo hi = (items.map text).flatten ∧ ∀ line ∈ items.map text, IsLine sep line := by
  induction h with
  | nil => exact ⟨between_self xs lo, fun _ h ↦ nomatch h⟩
  | snoc htiles hline hpart hitem ih =>
    obtain ⟨hflat, hlines⟩ := ih fun pos line item hmem ↦
      htext pos line item (List.mem_append_left _ hmem)
    have hlast := htext _ _ _ (List.mem_append_right _ List.mem_cons_self) hpart hitem
    constructor
    · rw [← between_append_part htiles.le hpart, hflat]
      simp [hlast]
    · intro line hmem
      rw [List.map_append, List.mem_append] at hmem
      rcases hmem with hmem | hmem
      · exact hlines line hmem
      · rw [List.map_singleton, List.mem_singleton, hlast] at hmem
        rwa [hmem]

/-- The positions of the items follow one another. -/
theorem Tiles.isChain (h : Tiles sep xs R lo items hi) {start length : β → Nat}
    (hitem : ∀ pos line item, item ∈ items → R pos line item →
      start item = pos ∧ length item = line.length) :
    items.IsChain (fun item next ↦ start next = start item + length item) ∧
      (∀ item ∈ items.head?, start item = lo) ∧
        ∀ item ∈ items.getLast?, start item + length item = hi := by
  induction h with
  | nil => exact ⟨.nil, (fun _ h ↦ nomatch h), fun _ h ↦ nomatch h⟩
  | @snoc mid items other line htiles hline hpart hother ih =>
    obtain ⟨hchain, hhead, hlast⟩ := ih fun pos line item hmem ↦
      hitem pos line item (List.mem_append_left _ hmem)
    obtain ⟨hstart, hlength⟩ :=
      hitem _ _ _ (List.mem_append_right _ List.mem_cons_self) hother
    refine ⟨?_, ?_, ?_⟩
    · rw [List.isChain_append]
      refine ⟨hchain, List.isChain_singleton other, ?_⟩
      intro item hmem next hnext
      cases hnext
      rw [hstart, hlast item hmem]
    · intro item hmem
      cases items with
      | nil =>
        cases hmem
        obtain rfl := htiles.eq_of_nil
        exact hstart
      | cons first rest => exact hhead item hmem
    · intro item hmem
      rw [List.getLast?_concat] at hmem
      cases hmem
      rw [hstart, hlength]

end Tiles

/-- Items which tile a sequence up to its tail stand for its lines. -/
theorem Tiles.map_eq_splitLines {β : Type} {R : Nat → List α → β → Prop} {items : List β}
    {hi : Nat} (h : Tiles sep xs R 0 items hi) (htail : sep ∉ xs.drop hi) {text : β → List α}
    (htext : ∀ pos line item, item ∈ items → line <+: xs.drop pos → R pos line item →
      text item = line) :
    splitLines sep xs = (items.map text, xs.drop hi) := by
  obtain ⟨hflat, hlines⟩ := h.exists_lines htext
  have hxs : xs = (items.map text).flatten ++ xs.drop hi := by
    rw [← hflat]
    exact (between_append_drop xs (Nat.zero_le hi)).symm
  calc splitLines sep xs = splitLines sep ((items.map text).flatten ++ xs.drop hi) := by rw [← hxs]
    _ = (items.map text, xs.drop hi) := splitLines_flatten_append hlines htail

end AgentOdometer.Lines
