import Mathlib.Data.List.Induction
import Mathlib.Data.List.Nodup
import Mathlib.Data.List.Pairwise

/-!
# Merging two lists of identified rules

Rules with an id and a symmetric conflict relation. New rules are placed one after the other
into a list which must stay free of conflicts: a new rule is refused when it conflicts with a
rule of another id, takes the place of a default of its own id, and leaves an edit of its own
id as it is.
-/

namespace AgentOdometer

/-- How rules are told apart, when two exclude each other, and which are replaceable. -/
structure RuleScheme (ρ κ : Type) where
  id : ρ → κ
  conflict : ρ → ρ → Bool
  isDefault : ρ → Bool

namespace RuleScheme

variable {ρ κ : Type} [DecidableEq κ] (S : RuleScheme ρ κ)

/-- A new rule conflicts with a rule of another id. -/
def refuses (rules : List ρ) (new : ρ) : Bool :=
  rules.any fun rule ↦ decide (S.id rule ≠ S.id new) && S.conflict rule new

/-- Put a rule in the place of the first one of its id. -/
def replaceFirst (new : ρ) : List ρ → List ρ
  | [] => []
  | rule :: rest => if S.id rule = S.id new then new :: rest else rule :: replaceFirst new rest

/-- Place one new rule; also the ids of the edits it met. -/
def place (state : List ρ × List κ) (new : ρ) : List ρ × List κ :=
  if S.refuses state.1 new then state
  else
    match state.1.find? fun rule ↦ S.id rule = S.id new with
    | none => (state.1 ++ [new], state.2)
    | some existing =>
        if S.isDefault existing then (S.replaceFirst new state.1, state.2)
        else (state.1, state.2 ++ [S.id existing])

/-- Place new rules in their order. -/
def merge (rules news : List ρ) : List ρ × List κ :=
  news.foldl S.place (rules, [])

/-- Rules of different ids do not conflict. -/
def NoConflict (rules : List ρ) : Prop :=
  ∀ rule ∈ rules, ∀ other ∈ rules, S.id rule ≠ S.id other → S.conflict rule other = false

/-- A new rule is accepted when its turn comes. -/
def Accepted (rules news : List ρ) (new : ρ) : Prop :=
  ∃ earlier later, news = earlier ++ new :: later ∧
    S.refuses (S.merge rules earlier).1 new = false

/-- No old rule keeps a new one out, where the defaults of the ids `taken` are gone. -/
def admits (rules : List ρ) (taken : List κ) (new : ρ) : Bool :=
  rules.all fun rule ↦ decide (S.id rule = S.id new) || !S.conflict rule new ||
    (S.isDefault rule && decide (S.id rule ∈ taken))

/-- The ids of the new rules which are let in, each against those let in ahead of it. -/
def taken (rules news : List ρ) : List κ :=
  news.foldl (fun ids new ↦ if S.admits rules ids new then S.id new :: ids else ids) []

/-- Every old rule in the way of a new one is a default whose place a rule let in ahead takes.
This speaks of the two lists only. -/
def Admitted (rules news : List ρ) (new : ρ) : Prop :=
  ∃ earlier later, news = earlier ++ new :: later ∧
    S.admits rules (S.taken rules earlier) new = true

variable {S} {rules news : List ρ} {rule new : ρ} {state : List ρ × List κ} {k : κ}

theorem refuses_eq_false_iff : S.refuses rules new = false ↔
    ∀ rule ∈ rules, S.id rule ≠ S.id new → S.conflict rule new = false := by
  unfold refuses
  simp [List.any_eq_false]

omit [DecidableEq κ] in
theorem NoConflict.of_pairwise (hsymm : ∀ a b, S.conflict a b = S.conflict b a)
    (h : rules.Pairwise fun a b ↦ S.conflict a b = false) : S.NoConflict rules := by
  have hsymmetric : Std.Symm fun a b ↦ S.conflict a b = false := by
    constructor
    intro a b hab
    rw [hsymm]
    exact hab
  intro a ha b hb hne
  apply h.forall ha hb
  rintro rfl
  exact hne rfl

omit [DecidableEq κ] in
/-- Rules without conflicts and of distinct ids exclude each other nowhere. -/
theorem NoConflict.pairwise (h : S.NoConflict rules) (hnodup : (rules.map S.id).Nodup) :
    rules.Pairwise fun a b ↦ S.conflict a b = false := by
  rw [List.nodup_iff_pairwise_ne, List.pairwise_map] at hnodup
  rw [List.pairwise_iff_forall_sublist] at hnodup ⊢
  intro a b hsub
  exact h a (hsub.subset List.mem_cons_self) b
    (hsub.subset (List.mem_cons_of_mem a List.mem_cons_self)) (hnodup hsub)

/-! ### One rule -/

theorem mem_replaceFirst (h : rule ∈ S.replaceFirst new rules) : rule ∈ rules ∨ rule = new := by
  induction rules with
  | nil => cases h
  | cons first rest ih =>
    unfold replaceFirst at h
    split at h
    · rcases List.mem_cons.mp h with h | h
      · exact .inr h
      · exact .inl (List.mem_cons_of_mem first h)
    · rcases List.mem_cons.mp h with rfl | h
      · exact .inl List.mem_cons_self
      · rcases ih h with h | h
        · exact .inl (List.mem_cons_of_mem first h)
        · exact .inr h

theorem mem_replaceFirst_of_ne (h : rule ∈ rules) (hne : S.id rule ≠ S.id new) :
    rule ∈ S.replaceFirst new rules := by
  induction rules with
  | nil => cases h
  | cons first rest ih =>
    unfold replaceFirst
    rcases List.mem_cons.mp h with rfl | h
    · rw [if_neg hne]
      exact List.mem_cons_self
    · split
      · exact List.mem_cons_of_mem new h
      · exact List.mem_cons_of_mem first (ih h)

theorem map_id_replaceFirst (new : ρ) (rules : List ρ) :
    (S.replaceFirst new rules).map S.id = rules.map S.id := by
  induction rules with
  | nil => rfl
  | cons first rest ih =>
    unfold replaceFirst
    split
    · next hid => rw [List.map_cons, List.map_cons, hid]
    · rw [List.map_cons, List.map_cons, ih]

theorem self_mem_replaceFirst (h : S.id new ∈ rules.map S.id) : new ∈ S.replaceFirst new rules := by
  induction rules with
  | nil => cases h
  | cons first rest ih =>
    unfold replaceFirst
    split
    · exact List.mem_cons_self
    · next hid =>
      rcases List.mem_cons.mp h with h | h
      · exact absurd h.symm hid
      · exact List.mem_cons_of_mem first (ih h)

/-- With distinct ids the replaced rule is gone. -/
theorem eq_of_mem_replaceFirst (hnodup : (rules.map S.id).Nodup)
    (h : rule ∈ S.replaceFirst new rules) (hid : S.id rule = S.id new) : rule = new := by
  have hnodup' : ((S.replaceFirst new rules).map S.id).Nodup := by
    rw [map_id_replaceFirst]
    exact hnodup
  have hnew : S.id new ∈ rules.map S.id := by
    rw [← map_id_replaceFirst new rules, ← hid]
    exact List.mem_map_of_mem h
  exact List.inj_on_of_nodup_map hnodup' h (self_mem_replaceFirst hnew) hid

theorem find?_id_eq_none_iff : (rules.find? fun rule ↦ S.id rule = k) = none ↔
    k ∉ rules.map S.id := by
  rw [List.find?_eq_none, List.mem_map]
  simp

theorem id_of_find? (h : (rules.find? fun rule ↦ S.id rule = k) = some rule) : S.id rule = k := by
  simpa using List.find?_some h

theorem mem_place (h : rule ∈ (S.place state new).1) : rule ∈ state.1 ∨ rule = new := by
  unfold place at h
  split at h
  · exact .inl h
  · split at h
    · rcases List.mem_append.mp h with h | h
      · exact .inl h
      · exact .inr (List.mem_singleton.mp h)
    · split at h
      · exact mem_replaceFirst h
      · exact .inl h

/-- The ids afterwards: those before, and that of an accepted rule. -/
theorem mem_ids_place : k ∈ (S.place state new).1.map S.id ↔
    k ∈ state.1.map S.id ∨ (S.refuses state.1 new = false ∧ S.id new = k) := by
  unfold place
  cases hrefuses : S.refuses state.1 new with
  | true => simp
  | false =>
    simp only [Bool.false_eq_true, if_false, true_and]
    cases hfind : state.1.find? fun rule ↦ S.id rule = S.id new with
    | none =>
      simp only [List.map_append, List.mem_append, List.map_cons, List.map_nil,
        List.mem_singleton, eq_comm]
    | some existing =>
      have hid : S.id existing = S.id new := id_of_find? hfind
      have hmem : S.id new ∈ state.1.map S.id := by
        rw [← hid]
        exact List.mem_map_of_mem (List.mem_of_find?_eq_some hfind)
      have hor : k ∈ state.1.map S.id ↔ k ∈ state.1.map S.id ∨ S.id new = k := by
        constructor
        · exact Or.inl
        · rintro (h | rfl)
          · exact h
          · exact hmem
      simp only
      split
      · rw [map_id_replaceFirst]
        exact hor
      · exact hor

theorem nodup_ids_place (hnodup : (state.1.map S.id).Nodup) :
    ((S.place state new).1.map S.id).Nodup := by
  unfold place
  split
  · exact hnodup
  · split
    · next hfind =>
      rw [List.map_append, List.nodup_append_comm]
      exact List.nodup_cons.mpr ⟨find?_id_eq_none_iff.mp hfind, hnodup⟩
    · split
      · rw [map_id_replaceFirst]
        exact hnodup
      · exact hnodup

/-- A rule stays unless it is a default and the new rule has its id. -/
theorem mem_place_of_mem (h : rule ∈ state.1)
    (hkeep : S.isDefault rule = false ∨ S.id rule ≠ S.id new) (hnodup : (state.1.map S.id).Nodup) :
    rule ∈ (S.place state new).1 := by
  unfold place
  split
  · exact h
  · split
    · exact List.mem_append_left _ h
    · next existing hfind =>
      split
      · next hdefault =>
        rcases hkeep with hkeep | hne
        · apply mem_replaceFirst_of_ne h
          intro hid
          have heq : rule = existing := List.inj_on_of_nodup_map hnodup h
            (List.mem_of_find?_eq_some hfind) (hid.trans (id_of_find? hfind).symm)
          rw [heq, hdefault] at hkeep
          cases hkeep
        · exact mem_replaceFirst_of_ne h hne
      · exact h

/-- Accepted rules keep the list free of conflicts. -/
theorem noConflict_place (hsymm : ∀ a b, S.conflict a b = S.conflict b a)
    (h : S.NoConflict state.1) :
    S.NoConflict (S.place state new).1 := by
  by_cases hrefuses : S.refuses state.1 new = true
  · unfold place
    rw [if_pos hrefuses]
    exact h
  · have haccepts := refuses_eq_false_iff.mp (Bool.eq_false_iff.mpr hrefuses)
    intro a ha b hb hne
    rcases mem_place ha with ha' | rfl
    · rcases mem_place hb with hb' | rfl
      · exact h a ha' b hb' hne
      · exact haccepts a ha' hne
    · rcases mem_place hb with hb' | rfl
      · rw [hsymm]
        exact haccepts b hb' (Ne.symm hne)
      · exact absurd rfl hne

/-! ### All rules -/

theorem merge_append (earlier later : List ρ) :
    S.merge rules (earlier ++ later) = later.foldl S.place (S.merge rules earlier) :=
  List.foldl_append

theorem merge_concat (earlier : List ρ) (new : ρ) :
    S.merge rules (earlier ++ [new]) = S.place (S.merge rules earlier) new :=
  merge_append earlier [new]

theorem mem_merge (h : rule ∈ (S.merge rules news).1) : rule ∈ rules ∨ rule ∈ news := by
  induction news using List.reverseRecOn generalizing rule with
  | nil => exact .inl h
  | append_singleton earlier new ih =>
    rw [merge_concat] at h
    rcases mem_place h with h | rfl
    · rcases ih h with h | h
      · exact .inl h
      · exact .inr (List.mem_append_left _ h)
    · exact .inr (List.mem_append_right _ (List.mem_singleton_self rule))

theorem nodup_ids_merge (hnodup : (rules.map S.id).Nodup) :
    ((S.merge rules news).1.map S.id).Nodup := by
  induction news using List.reverseRecOn with
  | nil => exact hnodup
  | append_singleton earlier new ih =>
    rw [merge_concat]
    exact nodup_ids_place ih

theorem noConflict_merge (hsymm : ∀ a b, S.conflict a b = S.conflict b a)
    (h : S.NoConflict rules) : S.NoConflict (S.merge rules news).1 := by
  induction news using List.reverseRecOn with
  | nil => exact h
  | append_singleton earlier new ih =>
    rw [merge_concat]
    exact noConflict_place hsymm ih

theorem Accepted.mem (h : S.Accepted rules news new) : new ∈ news := by
  obtain ⟨earlier, later, rfl, -⟩ := h
  exact List.mem_append_right _ List.mem_cons_self

/-- What an item of `earlier ++ [last]` satisfies together with those ahead of it. -/
theorem exists_split_concat {P : List ρ → Prop} {earlier : List ρ} {last : ρ} :
    (∃ first rest, earlier ++ [last] = first ++ new :: rest ∧ P first) ↔
      (∃ first rest, earlier = first ++ new :: rest ∧ P first) ∨ (new = last ∧ P earlier) := by
  constructor
  · rintro ⟨first, rest, hsplit, hnew⟩
    rcases List.eq_nil_or_concat rest with rfl | ⟨rest', last', rfl⟩
    · obtain ⟨rfl, hlast⟩ := List.append_inj' hsplit rfl
      cases hlast
      exact .inr ⟨rfl, hnew⟩
    · have hsplit' : earlier ++ [last] = (first ++ new :: rest') ++ [last'] := by
        rw [hsplit]
        simp
      obtain ⟨rfl, -⟩ := List.append_inj' hsplit' rfl
      exact .inl ⟨first, rest', rfl, hnew⟩
  · rintro (⟨first, rest, rfl, hnew⟩ | ⟨rfl, hnew⟩)
    · exact ⟨first, rest ++ [last], by rw [List.append_assoc, List.cons_append], hnew⟩
    · exact ⟨earlier, [], rfl, hnew⟩

/-- The ids of the result: the old ones, and those of the accepted rules. -/
theorem mem_ids_merge : k ∈ (S.merge rules news).1.map S.id ↔
    k ∈ rules.map S.id ∨ ∃ new, S.Accepted rules news new ∧ S.id new = k := by
  induction news using List.reverseRecOn with
  | nil =>
    constructor
    · exact Or.inl
    · rintro (h | ⟨new, haccepted, -⟩)
      · exact h
      · cases haccepted.mem
  | append_singleton earlier new ih =>
    rw [merge_concat, mem_ids_place, ih]
    unfold Accepted
    simp only [exists_split_concat]
    constructor
    · rintro ((h | ⟨other, haccepted, hid⟩) | ⟨haccepts, hid⟩)
      · exact .inl h
      · exact .inr ⟨other, .inl haccepted, hid⟩
      · exact .inr ⟨new, .inr ⟨rfl, haccepts⟩, hid⟩
    · rintro (h | ⟨other, haccepted | ⟨rfl, haccepts⟩, hid⟩)
      · exact .inl (.inl h)
      · exact .inl (.inr ⟨other, haccepted, hid⟩)
      · exact .inr ⟨haccepts, hid⟩

/-- Later rules of other ids leave a rule in its place. -/
theorem mem_foldl_place (h : rule ∈ state.1) (hnodup : (state.1.map S.id).Nodup)
    (hkeep : S.isDefault rule = false ∨ S.id rule ∉ news.map S.id) :
    rule ∈ (news.foldl S.place state).1 := by
  induction news generalizing state with
  | nil => exact h
  | cons new news ih =>
    apply ih
    · apply mem_place_of_mem h _ hnodup
      rcases hkeep with hkeep | hkeep
      · exact .inl hkeep
      · rw [List.map_cons, List.mem_cons, not_or] at hkeep
        exact .inr hkeep.1
    · exact nodup_ids_place hnodup
    · rcases hkeep with hkeep | hkeep
      · exact .inl hkeep
      · rw [List.map_cons, List.mem_cons, not_or] at hkeep
        exact .inr hkeep.2

/-- Edits survive, and rules which the new list does not have. -/
theorem mem_merge_of_keep (h : rule ∈ rules) (hnodup : (rules.map S.id).Nodup)
    (hkeep : S.isDefault rule = false ∨ S.id rule ∉ news.map S.id) :
    rule ∈ (S.merge rules news).1 :=
  mem_foldl_place h hnodup hkeep

/-- A new rule which conflicts with no old rule of another id is accepted. -/
theorem accepted_of_compatible (hnews : S.NoConflict news) (hnodup : (news.map S.id).Nodup)
    (hnew : new ∈ news) (hcompatible : S.refuses rules new = false) :
    S.Accepted rules news new := by
  obtain ⟨earlier, later, rfl⟩ := List.append_of_mem hnew
  refine ⟨earlier, later, rfl, refuses_eq_false_iff.mpr ?_⟩
  intro rule hrule hne
  rcases mem_merge hrule with hrule | hrule
  · exact refuses_eq_false_iff.mp hcompatible rule hrule hne
  · exact hnews rule (List.mem_append_left _ hrule) new
      (List.mem_append_right _ List.mem_cons_self) hne

/-- When its turn comes, the rules of a new rule's id are the old ones. -/
theorem mem_rules_of_id {earlier later : List ρ}
    (hnodup : ((earlier ++ new :: later).map S.id).Nodup)
    (h : rule ∈ (S.merge rules earlier).1) (hid : S.id rule = S.id new) : rule ∈ rules := by
  rcases mem_merge h with h | h
  · exact h
  · rw [List.map_append, List.nodup_append] at hnodup
    exact absurd hid (hnodup.2.2 _ (List.mem_map_of_mem h) _ List.mem_cons_self)

omit [DecidableEq κ] in
theorem notMem_ids_later {earlier later : List ρ}
    (hnodup : ((earlier ++ new :: later).map S.id).Nodup) : S.id new ∉ later.map S.id := by
  rw [List.map_append, List.nodup_append] at hnodup
  exact (List.nodup_cons.mp hnodup.2.1).1

/-- An accepted rule is in the result unless an edit has its id. -/
theorem mem_merge_of_accepted (hrules : (rules.map S.id).Nodup) (hnodup : (news.map S.id).Nodup)
    (haccepted : S.Accepted rules news new)
    (hdefault : ∀ rule ∈ rules, S.id rule = S.id new → S.isDefault rule = true) :
    new ∈ (S.merge rules news).1 := by
  obtain ⟨earlier, later, rfl, haccepts⟩ := haccepted
  have hplace : new ∈ (S.place (S.merge rules earlier) new).1 := by
    unfold place
    rw [if_neg (Bool.eq_false_iff.mp haccepts)]
    cases hfind : (S.merge rules earlier).1.find? fun rule ↦ S.id rule = S.id new with
    | none => exact List.mem_append_right _ (List.mem_singleton_self new)
    | some existing =>
      have hmem : existing ∈ (S.merge rules earlier).1 := List.mem_of_find?_eq_some hfind
      have hid : S.id existing = S.id new := id_of_find? hfind
      simp only
      rw [if_pos (hdefault existing (mem_rules_of_id hnodup hmem hid) hid)]
      apply self_mem_replaceFirst
      rw [← hid]
      exact List.mem_map_of_mem hmem
  rw [merge_append, List.foldl_cons]
  exact mem_foldl_place hplace (nodup_ids_place (nodup_ids_merge hrules))
    (.inr (notMem_ids_later hnodup))

theorem mem_reviewed_place (h : k ∈ state.2) : k ∈ (S.place state new).2 := by
  unfold place
  split
  · exact h
  · split
    · exact h
    · split
      · exact h
      · exact List.mem_append_left _ h

theorem mem_reviewed_foldl_place (h : k ∈ state.2) : k ∈ (news.foldl S.place state).2 := by
  induction news generalizing state with
  | nil => exact h
  | cons new news ih => exact ih (mem_reviewed_place h)

/-- The id of an edit which meets an accepted rule is reported. -/
theorem mem_reviewed_of_accepted (hrules : (rules.map S.id).Nodup) (hnodup : (news.map S.id).Nodup)
    (haccepted : S.Accepted rules news new) (hrule : rule ∈ rules) (hid : S.id rule = S.id new)
    (hedit : S.isDefault rule = false) : S.id rule ∈ (S.merge rules news).2 := by
  obtain ⟨earlier, later, rfl, haccepts⟩ := haccepted
  rw [merge_append, List.foldl_cons]
  apply mem_reviewed_foldl_place
  unfold place
  rw [if_neg (Bool.eq_false_iff.mp haccepts)]
  have hmem : rule ∈ (S.merge rules earlier).1 := mem_merge_of_keep hrule hrules (.inl hedit)
  cases hfind : (S.merge rules earlier).1.find? fun rule ↦ S.id rule = S.id new with
  | none =>
    refine absurd ?_ (find?_id_eq_none_iff.mp hfind)
    rw [← hid]
    exact List.mem_map_of_mem hmem
  | some existing =>
    have hexisting : existing ∈ rules :=
      mem_rules_of_id hnodup (List.mem_of_find?_eq_some hfind) (id_of_find? hfind)
    have heq : existing = rule := List.inj_on_of_nodup_map hrules hexisting hrule
      ((id_of_find? hfind).trans hid.symm)
    simp only
    rw [heq, hedit]
    exact List.mem_append_right _ (List.mem_singleton_self _)

/-- Only ids of edits which the new rules have too are reported. -/
theorem of_mem_reviewed (hnodup : (news.map S.id).Nodup) (h : k ∈ (S.merge rules news).2) :
    ∃ rule ∈ rules, S.id rule = k ∧ S.isDefault rule = false := by
  have hgeneral : ∀ earlier later : List ρ, news = earlier ++ later →
      k ∈ (S.merge rules earlier).2 → ∃ rule ∈ rules, S.id rule = k ∧ S.isDefault rule = false := by
    intro earlier
    induction earlier using List.reverseRecOn with
    | nil =>
      intro _ _ h
      cases h
    | append_singleton earlier new ih =>
      intro later hsplit h
      rw [List.append_assoc] at hsplit
      rw [merge_concat] at h
      unfold place at h
      split at h
      · exact ih _ hsplit h
      · split at h
        · exact ih _ hsplit h
        · next existing hfind =>
          split at h
          · exact ih _ hsplit h
          · next hdefault =>
            rcases List.mem_append.mp h with h | h
            · exact ih _ hsplit h
            · rw [hsplit] at hnodup
              refine ⟨existing, mem_rules_of_id hnodup (List.mem_of_find?_eq_some hfind)
                (id_of_find? hfind), (List.mem_singleton.mp h).symm,
                Bool.eq_false_iff.mpr hdefault⟩
  exact hgeneral news [] (List.append_nil news).symm h

/-! ### Admission -/

theorem admits_iff {ids : List κ} : S.admits rules ids new = true ↔
    ∀ rule ∈ rules, S.id rule ≠ S.id new → S.conflict rule new = true →
      S.isDefault rule = true ∧ S.id rule ∈ ids := by
  unfold admits
  rw [List.all_eq_true]
  constructor
  · intro h rule hrule hne hconflict
    simpa [hne, hconflict] using h rule hrule
  · intro h rule hrule
    by_cases hid : S.id rule = S.id new
    · simp [hid]
    · cases hconflict : S.conflict rule new with
      | false => simp
      | true => simp [h rule hrule hid hconflict]

theorem taken_concat (earlier : List ρ) (new : ρ) : S.taken rules (earlier ++ [new]) =
    if S.admits rules (S.taken rules earlier) new then S.id new :: S.taken rules earlier
    else S.taken rules earlier := by
  unfold taken
  rw [List.foldl_append]
  rfl

theorem mem_taken_iff : k ∈ S.taken rules news ↔
    ∃ new, S.Admitted rules news new ∧ S.id new = k := by
  induction news using List.reverseRecOn with
  | nil =>
    constructor
    · intro h
      cases h
    · rintro ⟨new, ⟨earlier, later, hsplit, -⟩, -⟩
      cases (List.append_eq_nil_iff.mp hsplit.symm).2
  | append_singleton earlier new ih =>
    have hconcat : k ∈ S.taken rules (earlier ++ [new]) ↔ k ∈ S.taken rules earlier ∨
        (S.admits rules (S.taken rules earlier) new = true ∧ S.id new = k) := by
      rw [taken_concat]
      cases S.admits rules (S.taken rules earlier) new with
      | true =>
        rw [if_pos rfl, List.mem_cons, eq_comm, or_comm]
        simp
      | false => simp
    rw [hconcat, ih]
    unfold Admitted
    simp only [exists_split_concat]
    constructor
    · rintro (⟨other, hadmitted, hid⟩ | ⟨hadmits, hid⟩)
      · exact ⟨other, .inl hadmitted, hid⟩
      · exact ⟨new, .inr ⟨rfl, hadmits⟩, hid⟩
    · rintro ⟨other, hadmitted | ⟨rfl, hadmits⟩, hid⟩
      · exact .inl ⟨other, hadmitted, hid⟩
      · exact .inr ⟨hadmits, hid⟩

/-- A rule which the defaults let in ahead do not concern is kept by one step. -/
theorem mem_place_of_not_taken (hnodup : (state.1.map S.id).Nodup) (h : rule ∈ state.1)
    (hkeep : S.refuses state.1 new = false → ¬(S.isDefault rule = true ∧ S.id rule = S.id new)) :
    rule ∈ (S.place state new).1 := by
  cases hrefuses : S.refuses state.1 new with
  | true =>
    unfold place
    rw [if_pos hrefuses]
    exact h
  | false =>
    apply mem_place_of_mem h _ hnodup
    cases hdefault : S.isDefault rule with
    | false => exact .inl rfl
    | true => exact .inr fun hid ↦ hkeep hrefuses ⟨hdefault, hid⟩

/-- A default whose id an accepted rule has is gone, unless the new rule is the same. -/
theorem eq_of_mem_place (hnodup : (state.1.map S.id).Nodup)
    (haccepts : S.refuses state.1 new = false) (hdefault : S.isDefault rule = true)
    (hid : S.id rule = S.id new) (h : rule ∈ (S.place state new).1) : rule = new := by
  unfold place at h
  rw [if_neg (Bool.eq_false_iff.mp haccepts)] at h
  cases hfind : state.1.find? fun rule ↦ S.id rule = S.id new with
  | none =>
    simp only [hfind] at h
    rcases List.mem_append.mp h with h | h
    · refine absurd ?_ (find?_id_eq_none_iff.mp hfind)
      rw [← hid]
      exact List.mem_map_of_mem h
    · exact List.mem_singleton.mp h
  | some existing =>
    simp only [hfind] at h
    split at h
    · exact eq_of_mem_replaceFirst hnodup h hid
    · next hedit =>
      have heq : rule = existing := List.inj_on_of_nodup_map hnodup h
        (List.mem_of_find?_eq_some hfind) (hid.trans (id_of_find? hfind).symm)
      rw [heq] at hdefault
      exact absurd hdefault hedit

/-- What the rules let in leave of the old ones. -/
structure Leaves (S : RuleScheme ρ κ) (rules news : List ρ) : Prop where
  kept : ∀ rule ∈ rules, ¬(S.isDefault rule = true ∧ S.id rule ∈ S.taken rules news) →
    rule ∈ (S.merge rules news).1
  gone : ∀ rule ∈ (S.merge rules news).1,
    rule ∈ news ∨ ¬(S.isDefault rule = true ∧ S.id rule ∈ S.taken rules news)

/-- A rule is refused when its turn comes exactly when an old rule keeps it out. -/
theorem Leaves.refuses_iff (h : S.Leaves rules news) (hnews : S.NoConflict (news ++ [new])) :
    S.refuses (S.merge rules news).1 new = false ↔
      S.admits rules (S.taken rules news) new = true := by
  rw [refuses_eq_false_iff, admits_iff]
  constructor
  · intro haccepts rule hrule hne hconflict
    by_contra htaken
    have hmem := h.kept rule hrule htaken
    rw [haccepts rule hmem hne] at hconflict
    cases hconflict
  · intro hadmits rule hmem hne
    have hnew : ∀ rule ∈ news, S.id rule ≠ S.id new → S.conflict rule new = false := by
      intro rule hrule hne
      exact hnews rule (List.mem_append_left _ hrule) new
        (List.mem_append_right _ (List.mem_singleton_self new)) hne
    rcases h.gone rule hmem with hrule | htaken
    · exact hnew rule hrule hne
    · rcases mem_merge hmem with hrule | hrule
      · rw [← Bool.not_eq_true]
        intro hconflict
        exact htaken (hadmits rule hrule hne hconflict)
      · exact hnew rule hrule hne

theorem leaves_merge (hrules : (rules.map S.id).Nodup) (hnews : S.NoConflict news) :
    S.Leaves rules news := by
  induction news using List.reverseRecOn with
  | nil =>
    constructor
    · intro rule hrule _
      exact hrule
    · intro rule _
      refine .inr ?_
      rintro ⟨-, htaken⟩
      cases htaken
  | append_singleton earlier new ih =>
    have hearlier : S.Leaves rules earlier := by
      apply ih
      intro a ha b hb
      exact hnews a (List.mem_append_left _ ha) b (List.mem_append_left _ hb)
    have hrefuses := hearlier.refuses_iff hnews
    have hnodup : ((S.merge rules earlier).1.map S.id).Nodup := nodup_ids_merge hrules
    rw [← Bool.not_eq_true] at hrefuses
    constructor
    · intro rule hrule hkeep
      rw [taken_concat] at hkeep
      rw [merge_concat]
      apply mem_place_of_not_taken hnodup
      · apply hearlier.kept rule hrule
        rintro ⟨hdefault, htaken⟩
        apply hkeep
        refine ⟨hdefault, ?_⟩
        split
        · exact List.mem_cons_of_mem _ htaken
        · exact htaken
      · rintro haccepts ⟨hdefault, hid⟩
        rw [if_pos (hrefuses.mp (Bool.eq_false_iff.mp haccepts))] at hkeep
        exact hkeep ⟨hdefault, hid ▸ List.mem_cons_self⟩
    · intro rule hmem
      rw [merge_concat] at hmem
      rw [taken_concat]
      by_cases hnew : rule = new
      · exact .inl (List.mem_append_right _ (List.mem_singleton.mpr hnew))
      · have hstate : rule ∈ (S.merge rules earlier).1 := by
          rcases mem_place hmem with h | h
          · exact h
          · exact absurd h hnew
        rcases hearlier.gone rule hstate with h | h
        · exact .inl (List.mem_append_left _ h)
        · refine .inr ?_
          rintro ⟨hdefault, htaken⟩
          split at htaken
          · next hadmits =>
            rcases List.mem_cons.mp htaken with hid | htaken
            · have haccepts := Bool.eq_false_iff.mpr (hrefuses.mpr hadmits)
              exact hnew (eq_of_mem_place hnodup haccepts hdefault hid hmem)
            · exact h ⟨hdefault, htaken⟩
          · exact h ⟨hdefault, htaken⟩

/-- Acceptance, by the two lists alone. -/
theorem accepted_iff_admitted (hrules : (rules.map S.id).Nodup) (hnews : S.NoConflict news) :
    S.Accepted rules news new ↔ S.Admitted rules news new := by
  unfold Accepted Admitted
  apply exists_congr
  intro earlier
  apply exists_congr
  intro later
  apply and_congr_right
  rintro rfl
  have hstart : S.NoConflict (earlier ++ [new]) := by
    intro a ha b hb
    have hsub : ∀ rule ∈ earlier ++ [new], rule ∈ earlier ++ new :: later := by
      intro rule hrule
      rcases List.mem_append.mp hrule with h | h
      · exact List.mem_append_left _ h
      · rw [List.mem_singleton.mp h]
        exact List.mem_append_right _ List.mem_cons_self
    exact hnews a (hsub a ha) b (hsub b hb)
  apply Leaves.refuses_iff _ hstart
  apply leaves_merge hrules
  intro a ha b hb
  exact hnews a (List.mem_append_left _ ha) b (List.mem_append_left _ hb)

theorem Admitted.mem (h : S.Admitted rules news new) : new ∈ news := by
  obtain ⟨earlier, later, rfl, -⟩ := h
  exact List.mem_append_right _ List.mem_cons_self

/-- The ids of the result, by the two lists alone. -/
theorem mem_ids_merge_iff_admitted (hrules : (rules.map S.id).Nodup) (hnews : S.NoConflict news) :
    k ∈ (S.merge rules news).1.map S.id ↔
      k ∈ rules.map S.id ∨ ∃ new, S.Admitted rules news new ∧ S.id new = k := by
  simp only [← accepted_iff_admitted hrules hnews]
  exact mem_ids_merge

end RuleScheme

end AgentOdometer
