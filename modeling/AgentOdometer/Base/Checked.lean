import Mathlib.Init

/-!
# Checked computations

`Result` as `Except`: the `ensure!` of one condition, and what it means that a sequence of
checked steps succeeds.
-/

namespace AgentOdometer

variable {ε α β : Type}

/-- A check which fails with the given error. -/
def require (holds : Bool) (error : ε) : Except ε Unit :=
  if holds then .ok () else .error error

theorem require_eq_ok {holds : Bool} {error : ε} {u : Unit} :
    require holds error = .ok u ↔ holds = true := by
  unfold require
  cases holds with
  | true => simp
  | false => simp

theorem bind_eq_ok {x : Except ε α} {f : α → Except ε β} {b : β} :
    (x >>= f) = .ok b ↔ ∃ a, x = .ok a ∧ f a = .ok b := by
  cases x with
  | error e => exact ⟨(fun h ↦ nomatch h), fun ⟨_, h, _⟩ ↦ nomatch h⟩
  | ok a =>
    constructor
    · intro h
      exact ⟨a, rfl, h⟩
    · rintro ⟨a', ha, h⟩
      cases ha
      exact h

theorem map_eq_ok {x : Except ε α} {f : α → β} {b : β} :
    x.map f = .ok b ↔ ∃ a, x = .ok a ∧ f a = b := by
  cases x with
  | error e => exact ⟨(fun h ↦ nomatch h), fun ⟨_, h, _⟩ ↦ nomatch h⟩
  | ok a => simp [Except.map]

theorem forM_eq_ok {check : α → Except ε Unit} {items : List α} {u : Unit} :
    items.forM check = .ok u ↔ ∀ item ∈ items, check item = .ok () := by
  induction items with
  | nil => exact ⟨fun _ _ h ↦ (nomatch h), fun _ ↦ rfl⟩
  | cons item rest ih =>
    change (check item >>= fun _ ↦ rest.forM check) = .ok u ↔ _
    rw [bind_eq_ok, List.forall_mem_cons, ← ih]
    exact ⟨fun ⟨_, hitem, hrest⟩ ↦ ⟨hitem, hrest⟩, fun ⟨hitem, hrest⟩ ↦ ⟨(), hitem, hrest⟩⟩

end AgentOdometer
