import AgentOdometer.Parser.Json
import Mathlib.Data.List.Forall2

/-!
# Lists of turns

Every parser keeps the turns of a session in a list: each turn has an id of its own and its
position as its index, and only the last turn can be in progress.
-/

namespace AgentOdometer.Parser

/-- The turns of a session, in the order in which they were opened. -/
structure TurnList (turns : List TurnInfo) : Prop where
  ids : (turns.map TurnInfo.turnId).Nodup
  index : ∀ i turn, turns[i]? = some turn → turn.index = i + 1
  inProgress : ∀ i turn, turns[i]? = some turn → turn.status = .inProgress → i + 1 = turns.length

theorem TurnList.nil : TurnList [] where
  ids := List.nodup_nil
  index := fun _ _ h ↦ nomatch h
  inProgress := fun _ _ h ↦ nomatch h

/-! ### Turns which stay -/

/-- A change of a turn which keeps its id and its index and does not open it again. -/
structure Kept (before after : TurnInfo) : Prop where
  turnId : after.turnId = before.turnId
  index : after.index = before.index
  status : after.status = .inProgress → before.status = .inProgress

theorem Kept.refl (turn : TurnInfo) : Kept turn turn :=
  ⟨rfl, rfl, id⟩

section

variable {turns before after : List TurnInfo} {f : TurnInfo → TurnInfo}

theorem kept_refl (turns : List TurnInfo) : List.Forall₂ Kept turns turns :=
  List.forall₂_same.mpr fun turn _ ↦ Kept.refl turn

theorem kept_map (hf : ∀ turn, Kept turn (f turn)) (turns : List TurnInfo) :
    List.Forall₂ Kept turns (turns.map f) :=
  List.forall₂_map_right_iff.mpr (List.forall₂_same.mpr fun turn _ ↦ hf turn)

theorem kept_modify (hf : ∀ turn, Kept turn (f turn)) (turns : List TurnInfo) (i : Nat) :
    List.Forall₂ Kept turns (turns.modify i f) := by
  induction turns generalizing i with
  | nil =>
    rw [List.modify_nil]
    exact kept_refl []
  | cons turn rest ih =>
    cases i with
    | zero => exact .cons (hf turn) (kept_refl rest)
    | succ i => exact .cons (Kept.refl turn) (ih i)

theorem kept_modifyFirst (hf : ∀ turn, Kept turn (f turn)) (p : TurnInfo → Bool)
    (turns : List TurnInfo) : List.Forall₂ Kept turns (modifyFirst p f turns) := by
  induction turns with
  | nil => exact kept_refl []
  | cons turn rest ih =>
    unfold modifyFirst
    split
    · exact .cons (hf turn) (kept_refl rest)
    · exact .cons (Kept.refl turn) ih

theorem kept_abortOpen (turn : TurnInfo) : Kept turn (abortOpen turn) := by
  unfold abortOpen
  split
  · exact ⟨rfl, rfl, fun h ↦ nomatch h⟩
  · exact Kept.refl turn

theorem abortOpen_ne_inProgress (turn : TurnInfo) : (abortOpen turn).status ≠ .inProgress := by
  unfold abortOpen
  split
  · exact TurnStatus.noConfusion
  next hnot => exact hnot

/-- Derived figures do not touch the identity or the status of a turn. -/
theorem kept_refreshTurns (readers : Readers) (observations : List ToolObservation)
    (taken : List String) (turns : List TurnInfo) :
    List.Forall₂ Kept turns (refreshTurns readers observations taken turns) := by
  induction turns generalizing taken with
  | nil => exact kept_refl []
  | cons turn rest ih => exact .cons ⟨rfl, rfl, id⟩ (ih _)

theorem ids_of_kept (hkept : List.Forall₂ Kept before after) :
    after.map TurnInfo.turnId = before.map TurnInfo.turnId := by
  induction hkept with
  | nil => rfl
  | cons hturn _ ih => rw [List.map_cons, List.map_cons, hturn.turnId, ih]

/-- A turn of the changed list was in the list. -/
theorem exists_kept (hkept : List.Forall₂ Kept before after) {i : Nat} {turn : TurnInfo}
    (hturn : after[i]? = some turn) : ∃ old, before[i]? = some old ∧ Kept old turn := by
  obtain ⟨hlt, rfl⟩ := List.getElem?_eq_some_iff.mp hturn
  have hbefore : i < before.length := by
    rw [hkept.length_eq]
    exact hlt
  exact ⟨before[i], List.getElem?_eq_getElem hbefore,
    (List.forall₂_iff_get.mp hkept).2 i hbefore hlt⟩

/-- Changes which keep every turn keep the list. -/
theorem TurnList.kept (h : TurnList before) (hkept : List.Forall₂ Kept before after) :
    TurnList after := by
  refine ⟨?_, ?_, ?_⟩
  · rw [ids_of_kept hkept]
    exact h.ids
  · intro i turn hturn
    obtain ⟨old, hold, hk⟩ := exists_kept hkept hturn
    rw [hk.index]
    exact h.index i old hold
  · intro i turn hturn hopen
    obtain ⟨old, hold, hk⟩ := exists_kept hkept hturn
    rw [← hkept.length_eq]
    exact h.inProgress i old hold (hk.status hopen)

/-- A turn of a new id is opened behind turns which are all closed. -/
theorem TurnList.push (h : TurnList turns) {turn : TurnInfo}
    (hnew : turn.turnId ∉ turns.map TurnInfo.turnId) (hindex : turn.index = turns.length + 1)
    (hclosed : ∀ old ∈ turns, old.status ≠ .inProgress) : TurnList (turns ++ [turn]) := by
  have hget : ∀ i other, (turns ++ [turn])[i]? = some other →
      turns[i]? = some other ∨ i = turns.length ∧ other = turn := by
    intro i other hother
    rcases lt_or_ge i turns.length with hlt | hge
    · rw [List.getElem?_append_left hlt] at hother
      exact Or.inl hother
    · rw [List.getElem?_append_right hge] at hother
      have hi : i - turns.length = 0 := by
        by_contra hne
        rw [List.getElem?_eq_none (by simp only [List.length_singleton]; omega)] at hother
        cases hother
      rw [hi] at hother
      cases hother
      exact Or.inr ⟨by omega, rfl⟩
  refine ⟨?_, ?_, ?_⟩
  · rw [List.map_append, List.map_singleton, List.nodup_append]
    refine ⟨h.ids, List.nodup_singleton _, ?_⟩
    rintro id hid _ hid' rfl
    rw [List.mem_singleton] at hid'
    exact hnew (hid' ▸ hid)
  · intro i other hother
    rcases hget i other hother with hold | ⟨rfl, rfl⟩
    · exact h.index i other hold
    · exact hindex
  · intro i other hother hopen
    rcases hget i other hother with hold | ⟨rfl, rfl⟩
    · exact absurd hopen (hclosed other (List.mem_of_getElem? hold))
    · rw [List.length_append, List.length_singleton]

end

end AgentOdometer.Parser
