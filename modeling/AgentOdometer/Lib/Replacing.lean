import Mathlib.Data.List.Infix

/-!
# Replacing phrases

The occurrences of a phrase are found from the left and a label is put in the place of each. Where
the elements of a text tell whether they were inserted, what is left of a phrase always has an
element that was.
-/

namespace AgentOdometer.Replacing

variable {α β γ : Type} [DecidableEq α] {unit : β → α} {inserted : β → Bool}
  {phrase other : List α} {label text part : List β}

/-- Puts an element in front of the first part. -/
def consHead (x : β) : List (List β) → List (List β)
  | [] => [[x]]
  | part :: parts => (x :: part) :: parts

/-- The parts of a text, the first `skip` elements of which belong to an occurrence. -/
def splitFrom (unit : β → α) (phrase : List α) : Nat → List β → List (List β)
  | _, [] => [[]]
  | skip + 1, _ :: text => splitFrom unit phrase skip text
  | 0, x :: text =>
    if phrase <+: (x :: text).map unit then [] :: splitFrom unit phrase (phrase.length - 1) text
    else consHead x (splitFrom unit phrase 0 text)

/-- The parts of a text between the occurrences of a phrase. -/
def split (unit : β → α) (phrase : List α) (text : List β) : List (List β) :=
  splitFrom unit phrase 0 text

/-- The text with a label for each occurrence of a phrase. -/
def replace (unit : β → α) (phrase : List α) (label text : List β) : List β :=
  label.intercalate (split unit phrase text)

/-- The text with a label for each occurrence of the phrases, one phrase after another. -/
def replaceAll (unit : β → α) (label : List β) (phrases : List (List α)) (text : List β) : List β :=
  phrases.foldl (fun text phrase ↦
    if phrase = [] then text else replace unit phrase label text) text

/-! ### Parts -/

/-- The first part is in front of the text. -/
theorem splitFrom_zero (unit : β → α) (phrase : List α) (text : List β) :
    ∃ part parts, splitFrom unit phrase 0 text = part :: parts ∧ part <+: text := by
  induction text with
  | nil => exact ⟨[], [], rfl, List.prefix_refl _⟩
  | cons x text ih =>
    obtain ⟨part, parts, hparts, hpart⟩ := ih
    rw [splitFrom]
    split
    · exact ⟨[], _, rfl, List.nil_prefix⟩
    · exact ⟨x :: part, parts, by rw [hparts, consHead], List.cons_prefix_cons.mpr ⟨rfl, hpart⟩⟩

theorem split_ne_nil (unit : β → α) (phrase : List α) (text : List β) :
    split unit phrase text ≠ [] := by
  obtain ⟨part, parts, hparts, -⟩ := splitFrom_zero unit phrase text
  rw [split, hparts]
  exact List.cons_ne_nil _ _

theorem infix_of_mem_splitFrom {skip : Nat} (h : part ∈ splitFrom unit phrase skip text) :
    part <:+: text := by
  induction text generalizing skip part with
  | nil =>
    rw [splitFrom.eq_def] at h
    obtain rfl := List.mem_singleton.mp h
    exact List.infix_refl _
  | cons x text ih =>
    rcases skip with - | skip
    · rw [splitFrom] at h
      split at h
      · rcases List.mem_cons.mp h with rfl | h
        · exact List.nil_infix
        · exact List.infix_cons (ih h)
      · obtain ⟨first, parts, hparts, hfirst⟩ := splitFrom_zero unit phrase text
        rw [hparts, consHead] at h
        rcases List.mem_cons.mp h with rfl | h
        · exact (List.cons_prefix_cons.mpr ⟨rfl, hfirst⟩).isInfix
        · exact List.infix_cons (ih (hparts ▸ List.mem_cons_of_mem _ h))
    · exact List.infix_cons (ih h)

/-- No part has an occurrence of the phrase. -/
theorem not_infix_of_mem_splitFrom (hphrase : phrase ≠ []) {skip : Nat}
    (h : part ∈ splitFrom unit phrase skip text) : ¬phrase <:+: part.map unit := by
  induction text generalizing skip part with
  | nil =>
    rw [splitFrom.eq_def] at h
    obtain rfl := List.mem_singleton.mp h
    exact fun hinfix ↦ hphrase (List.infix_nil.mp hinfix)
  | cons x text ih =>
    rcases skip with - | skip
    · rw [splitFrom] at h
      split at h
      next =>
        rcases List.mem_cons.mp h with rfl | h
        · exact fun hinfix ↦ hphrase (List.infix_nil.mp hinfix)
        · exact ih h
      next hnone =>
        obtain ⟨first, parts, hparts, hfirst⟩ := splitFrom_zero unit phrase text
        rw [hparts, consHead] at h
        rcases List.mem_cons.mp h with rfl | h
        · rw [List.map_cons, List.infix_cons_iff, not_or]
          refine ⟨fun hhead ↦ hnone (hhead.trans ?_), ih (hparts ▸ List.mem_cons_self)⟩
          rw [← List.map_cons]
          exact (List.cons_prefix_cons.mpr ⟨rfl, hfirst⟩).map unit
        · exact ih (hparts ▸ List.mem_cons_of_mem _ h)
    · exact ih h

theorem splitFrom_map (unit : β → α) (f : γ → β) (phrase : List α) (skip : Nat) (text : List γ) :
    splitFrom unit phrase skip (text.map f) =
      (splitFrom (unit ∘ f) phrase skip text).map (List.map f) := by
  have hcons : ∀ (x : γ) (parts : List (List γ)),
      consHead (f x) (parts.map (List.map f)) = (consHead x parts).map (List.map f) := by
    intro x parts
    cases parts <;> rfl
  induction text generalizing skip with
  | nil =>
    rw [splitFrom.eq_def, splitFrom.eq_def]
    rfl
  | cons x text ih =>
    rcases skip with - | skip
    · rw [List.map_cons, splitFrom, splitFrom, ← List.map_cons, List.map_map]
      split
      · rw [ih, List.map_cons, List.map_nil]
      · rw [ih, hcons]
    · exact ih skip

theorem intercalate_map (f : γ → β) (label : List γ) (parts : List (List γ)) :
    (label.map f).intercalate (parts.map (List.map f)) = (label.intercalate parts).map f := by
  induction parts with
  | nil => rfl
  | cons part parts ih =>
    cases parts with
    | nil => rw [List.map_singleton, List.intercalate_singleton, List.intercalate_singleton]
    | cons next parts =>
      rw [List.map_cons, List.map_cons, List.intercalate_cons_cons, ← List.map_cons, ih,
        List.intercalate_cons_cons, List.map_append, List.map_append]

/-- What the elements carry besides the text has no part in its replacements. -/
theorem replaceAll_map (unit : β → α) (f : γ → β) (label : List γ) (phrases : List (List α))
    (text : List γ) : replaceAll unit (label.map f) phrases (text.map f) =
      (replaceAll (unit ∘ f) label phrases text).map f := by
  induction phrases generalizing text with
  | nil => rfl
  | cons phrase phrases ih =>
    rw [replaceAll, replaceAll, List.foldl_cons, List.foldl_cons]
    split
    · exact ih text
    · rw [replace, split, splitFrom_map, intercalate_map]
      exact ih _

/-! ### Inserted elements -/

/-- Every occurrence of a phrase has an inserted element. -/
def Covered (unit : β → α) (inserted : β → Bool) (phrase : List α) (text : List β) : Prop :=
  ∀ found, found <:+: text → found.map unit = phrase → ∃ x ∈ found, inserted x = true

/-- Text in front of an inserted element. -/
theorem prefix_of_kept (front : List β) {found back : List β} {x : β} (hx : inserted x = true)
    (hkept : ∀ y ∈ found, inserted y ≠ true) (h : found <+: front ++ x :: back) :
    found <+: front := by
  rcases Nat.le_total found.length front.length with hle | hle
  · exact List.prefix_of_prefix_length_le h (List.prefix_append _ _) hle
  · rcases Nat.lt_or_eq_of_le hle with hlt | heq
    · have hfront : front ++ [x] <+: found := by
        refine List.prefix_of_prefix_length_le ?_ h (by simpa using Nat.succ_le_of_lt hlt)
        exact ⟨back, by rw [List.append_assoc, List.singleton_append]⟩
      exact absurd hx (hkept x (hfront.subset (List.mem_append_right _ List.mem_cons_self)))
    · exact List.prefix_of_prefix_length_le h (List.prefix_append _ _) heq.symm.le

/-- Kept text is on one side of a label. -/
theorem infix_of_kept {found front back : List β} (hlabel : label ≠ [])
    (hinserted : ∀ x ∈ label, inserted x = true) (hkept : ∀ y ∈ found, inserted y ≠ true)
    (h : found <:+: front ++ (label ++ back)) : found <:+: front ∨ found <:+: back := by
  induction front with
  | nil =>
    right
    rw [List.nil_append] at h
    clear hlabel
    induction label with
    | nil => exact h
    | cons x label ih =>
      rcases List.infix_cons_iff.mp h with hhead | hinfix
      · have hnil := prefix_of_kept [] (hinserted x List.mem_cons_self) hkept hhead
        rw [List.prefix_nil.mp hnil]
        exact List.nil_infix
      · exact ih (fun y hy ↦ hinserted y (List.mem_cons_of_mem _ hy)) hinfix
  | cons y front ih =>
    rcases List.infix_cons_iff.mp h with hhead | hinfix
    · left
      obtain ⟨x, rest, rfl⟩ := List.exists_cons_of_ne_nil hlabel
      exact (prefix_of_kept (y :: front) (hinserted x List.mem_cons_self) hkept hhead).isInfix
    · exact (ih hinfix).imp_left List.infix_cons

/-- Kept text is in a part. -/
theorem exists_part_of_kept {found : List β} {parts : List (List β)} (hlabel : label ≠ [])
    (hinserted : ∀ x ∈ label, inserted x = true) (hkept : ∀ y ∈ found, inserted y ≠ true)
    (hparts : parts ≠ []) (h : found <:+: label.intercalate parts) :
    ∃ part ∈ parts, found <:+: part := by
  induction parts with
  | nil => exact absurd rfl hparts
  | cons part parts ih =>
    rcases parts with - | ⟨next, parts⟩
    · rw [List.intercalate_singleton] at h
      exact ⟨part, List.mem_cons_self, h⟩
    · rw [List.intercalate_cons_cons, List.append_assoc] at h
      rcases infix_of_kept hlabel hinserted hkept h with hpart | hrest
      · exact ⟨part, List.mem_cons_self, hpart⟩
      · obtain ⟨other, hmem, hother⟩ := ih (List.cons_ne_nil _ _) hrest
        exact ⟨other, List.mem_cons_of_mem _ hmem, hother⟩

section Labels

variable (hlabel : label ≠ []) (hinserted : ∀ x ∈ label, inserted x = true)
include hlabel hinserted

/-- What is left of a replaced phrase has an inserted element. -/
theorem covered_replace (hphrase : phrase ≠ []) :
    Covered unit inserted phrase (replace unit phrase label text) := by
  intro found hfound hmap
  by_contra hnone
  have hkept : ∀ y ∈ found, inserted y ≠ true := fun y hy hyes ↦ hnone ⟨y, hy, hyes⟩
  obtain ⟨part, hmem, hpart⟩ := exists_part_of_kept hlabel hinserted hkept
    (split_ne_nil unit phrase text) hfound
  exact not_infix_of_mem_splitFrom hphrase hmem (hmap ▸ hpart.map unit)

/-- The replacement of a phrase leaves the others covered. -/
theorem Covered.replace (h : Covered unit inserted other text) :
    Covered unit inserted other (replace unit phrase label text) := by
  intro found hfound hmap
  by_contra hnone
  have hkept : ∀ y ∈ found, inserted y ≠ true := fun y hy hyes ↦ hnone ⟨y, hy, hyes⟩
  obtain ⟨part, hmem, hpart⟩ := exists_part_of_kept hlabel hinserted hkept
    (split_ne_nil unit phrase text) hfound
  exact hnone (h found (hpart.trans (infix_of_mem_splitFrom hmem)) hmap)

theorem Covered.replaceAll {phrases : List (List α)} (h : Covered unit inserted other text) :
    Covered unit inserted other (replaceAll unit label phrases text) := by
  induction phrases generalizing text with
  | nil => exact h
  | cons phrase phrases ih =>
    rw [Replacing.replaceAll, List.foldl_cons]
    split
    · exact ih h
    · exact ih (h.replace hlabel hinserted)

/-- After the replacement of all phrases, what is left of any has an inserted element. -/
theorem covered_replaceAll {phrases : List (List α)} (hmem : phrase ∈ phrases)
    (hphrase : phrase ≠ []) :
    Covered unit inserted phrase (replaceAll unit label phrases text) := by
  induction phrases generalizing text with
  | nil => cases hmem
  | cons next phrases ih =>
    rw [Replacing.replaceAll, List.foldl_cons]
    rcases List.mem_cons.mp hmem with rfl | hmem
    · rw [if_neg hphrase]
      exact (covered_replace hlabel hinserted hphrase).replaceAll hlabel hinserted
    · exact ih hmem

end Labels

theorem flatten_splitFrom_sublist (skip : Nat) (text : List β) :
    (splitFrom unit phrase skip text).flatten.Sublist text := by
  induction text generalizing skip with
  | nil =>
    rw [splitFrom.eq_def]
    exact List.Sublist.refl _
  | cons x text ih =>
    rcases skip with - | skip
    · rw [splitFrom]
      split
      · exact (ih _).cons x
      · obtain ⟨first, parts, hparts, -⟩ := splitFrom_zero unit phrase text
        have hrest := ih 0
        rw [hparts] at hrest ⊢
        exact hrest.cons_cons x
    · exact (ih skip).cons x

theorem filter_intercalate (hinserted : ∀ x ∈ label, inserted x = true) (parts : List (List β)) :
    (label.intercalate parts).filter (!inserted ·) = parts.flatten.filter (!inserted ·) := by
  have hnone : label.filter (!inserted ·) = [] :=
    List.filter_eq_nil_iff.mpr fun x hx ↦ by simp [hinserted x hx]
  induction parts with
  | nil => rfl
  | cons part parts ih =>
    cases parts with
    | nil => rw [List.intercalate_singleton, List.flatten_singleton]
    | cons next parts =>
      rw [List.intercalate_cons_cons, List.filter_append, List.filter_append, ih, hnone,
        List.append_nil, ← List.filter_append]
      rfl

/-- The elements which were not inserted are some of the text, in its order. -/
theorem kept_replaceAll_sublist (hinserted : ∀ x ∈ label, inserted x = true)
    (phrases : List (List α)) (text : List β) :
    ((replaceAll unit label phrases text).filter (!inserted ·)).Sublist text := by
  have hkept : ((replaceAll unit label phrases text).filter (!inserted ·)).Sublist
      (text.filter (!inserted ·)) := by
    induction phrases generalizing text with
    | nil => exact List.Sublist.refl _
    | cons phrase phrases ih =>
      rw [replaceAll, List.foldl_cons]
      split
      · exact ih text
      · refine (ih _).trans ?_
        rw [replace, filter_intercalate hinserted]
        exact (flatten_splitFrom_sublist 0 text).filter _
  exact hkept.trans List.filter_sublist

end AgentOdometer.Replacing
