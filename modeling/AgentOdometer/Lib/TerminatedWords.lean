import Mathlib.Data.List.Basic

/-!
# Words ended by a separator

A list of words written one after another, each with a separator behind it. Where no word holds the
separator, the words can be read back, and one text begins another exactly if its words do.
-/

namespace AgentOdometer.TerminatedWords

variable {α : Type} {sep : α}

/-- The words, each with the separator behind it. -/
def terminate (sep : α) (words : List (List α)) : List α :=
  words.flatMap (· ++ [sep])

@[simp] theorem terminate_nil : terminate sep [] = [] := rfl

@[simp] theorem terminate_cons (word : List α) (words : List (List α)) :
    terminate sep (word :: words) = word ++ sep :: terminate sep words := by
  rw [terminate, List.flatMap_cons, List.append_assoc, List.singleton_append]
  rfl

theorem terminate_append (front back : List (List α)) :
    terminate sep (front ++ back) = terminate sep front ++ terminate sep back :=
  List.flatMap_append

/-- A text of words ends with the separator. -/
theorem exists_terminate_eq {words : List (List α)} (h : words ≠ []) :
    ∃ text, terminate sep words = text ++ [sep] := by
  induction words with
  | nil => exact absurd rfl h
  | cons word words ih =>
    rcases words with - | ⟨next, words⟩
    · exact ⟨word, by simp⟩
    · obtain ⟨text, htext⟩ := ih (List.cons_ne_nil _ _)
      exact ⟨word ++ sep :: text, by rw [terminate_cons, htext, List.append_assoc]; rfl⟩

/-- Of two texts with a word in front, the one begins the other only if their first words are the
same. -/
theorem word_of_prefix {word word' text text' : List α} (h : sep ∉ word) (h' : sep ∉ word')
    (hfront : word ++ sep :: text <+: word' ++ sep :: text') : word = word' ∧ text <+: text' := by
  induction word generalizing word' with
  | nil =>
    rcases word' with - | ⟨c, word'⟩
    · exact ⟨rfl, (List.cons_prefix_cons.mp hfront).2⟩
    · obtain rfl := (List.cons_prefix_cons.mp hfront).1
      exact absurd List.mem_cons_self h'
  | cons c word ih =>
    rcases word' with - | ⟨c', word'⟩
    · obtain rfl := (List.cons_prefix_cons.mp hfront).1
      exact absurd List.mem_cons_self h
    · obtain ⟨rfl, hrest⟩ := List.cons_prefix_cons.mp hfront
      obtain ⟨rfl, htext⟩ := ih (fun hin ↦ h (List.mem_cons_of_mem _ hin))
        (fun hin ↦ h' (List.mem_cons_of_mem _ hin)) hrest
      exact ⟨rfl, htext⟩

theorem terminate_prefix_iff {words words' : List (List α)} (h : ∀ word ∈ words, sep ∉ word)
    (h' : ∀ word ∈ words', sep ∉ word) :
    terminate sep words <+: terminate sep words' ↔ words <+: words' := by
  constructor
  · intro hfront
    induction words generalizing words' with
    | nil => exact List.nil_prefix
    | cons word words ih =>
      rw [List.forall_mem_cons] at h
      rcases words' with - | ⟨word', words'⟩
      · rw [terminate_nil, List.prefix_nil, terminate_cons] at hfront
        exact absurd hfront (by simp)
      · rw [List.forall_mem_cons] at h'
        rw [terminate_cons, terminate_cons] at hfront
        obtain ⟨rfl, hrest⟩ := word_of_prefix h.1 h'.1 hfront
        exact List.cons_prefix_cons.mpr ⟨rfl, ih h.2 h'.2 hrest⟩
  · rintro ⟨back, rfl⟩
    rw [terminate_append]
    exact List.prefix_append _ _

theorem terminate_inj {words words' : List (List α)} (h : ∀ word ∈ words, sep ∉ word)
    (h' : ∀ word ∈ words', sep ∉ word) : terminate sep words = terminate sep words' ↔
      words = words' := by
  refine ⟨fun heq ↦ ?_, fun heq ↦ heq ▸ rfl⟩
  have hfront := (terminate_prefix_iff h h').mp (heq ▸ List.prefix_refl _)
  have hback := (terminate_prefix_iff h' h).mp (heq ▸ List.prefix_refl _)
  exact hfront.eq_of_length_le hback.length_le

/-- Two texts whose last separator is left out: the one is the other, or begins it up to a
separator, exactly if its words begin the other's. -/
theorem prefix_iff_of_append_eq {words words' : List (List α)} {key key' : List α}
    (h : ∀ word ∈ words, sep ∉ word) (h' : ∀ word ∈ words', sep ∉ word)
    (hkey : key ++ [sep] = terminate sep words) (hkey' : key' ++ [sep] = terminate sep words') :
    key = key' ∨ key ++ [sep] <+: key' ↔ words <+: words' := by
  rw [← terminate_prefix_iff h h', ← hkey, ← hkey']
  constructor
  · rintro (rfl | hfront)
    · exact List.prefix_refl _
    · exact hfront.trans (List.prefix_append _ _)
  · rintro ⟨back, hback⟩
    rcases List.eq_nil_or_concat back with rfl | ⟨back, c, rfl⟩
    · rw [List.append_nil] at hback
      exact .inl (List.append_cancel_right hback)
    · rw [List.concat_eq_append, ← List.append_assoc] at hback
      exact .inr ⟨back, (List.append_inj' hback rfl).1⟩

end AgentOdometer.TerminatedWords
