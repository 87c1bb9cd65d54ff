import Mathlib.Init

/-!
# Conditions along a run

A total step function is run over a list of actions. A condition on a state and the action taken
there holds along the run when every step meets it, and a property of the last state may be the
same as a condition along the run.
-/

namespace AgentOdometer

variable {σ α : Type} {step : σ → α → σ} {ok met : σ → α → Prop} {inv clean : σ → Prop}

/-- Every step of the run meets the condition, in the state in which it is taken. -/
def Along (step : σ → α → σ) (ok : σ → α → Prop) : σ → List α → Prop
  | _, [] => True
  | s, a :: rest => ok s a ∧ Along step ok (step s a) rest

namespace Along

instance decidable [hok : ∀ s a, Decidable (ok s a)] :
    (s : σ) → (actions : List α) → Decidable (Along step ok s actions)
  | _, [] => isTrue True.intro
  | s, a :: rest => @instDecidableAnd _ _ (hok s a) (decidable (step s a) rest)

/-- What every admitted step preserves holds after the run. -/
theorem invariant (hstep : ∀ s a, inv s → ok s a → inv (step s a)) {actions : List α} {s : σ}
    (hs : inv s) (hok : Along step ok s actions) : inv (actions.foldl step s) := by
  induction actions generalizing s with
  | nil => exact hs
  | cons a rest ih => exact ih (hstep s a hs hok.1) hok.2

variable (inv clean) in
/-- A property which a step keeps exactly when it meets a condition holds after a run exactly when
it held before and every step meets the condition. -/
theorem clean_iff (hstep : ∀ s a, inv s → ok s a → inv (step s a))
    (hclean : ∀ s a, inv s → ok s a → (clean (step s a) ↔ clean s ∧ met s a))
    {actions : List α} {s : σ} (hs : inv s) (hok : Along step ok s actions) :
    clean (actions.foldl step s) ↔ clean s ∧ Along step met s actions := by
  induction actions generalizing s with
  | nil => exact (iff_of_eq (and_true (clean s))).symm
  | cons a rest ih =>
    rw [List.foldl_cons, ih (hstep s a hs hok.1) hok.2, hclean s a hs hok.1]
    exact and_assoc

/-- A condition which an invariant implies is met along every run. -/
theorem of_invariant (hstep : ∀ s a, inv s → ok s a → inv (step s a))
    (hmet : ∀ s a, inv s → ok s a → met s a) {actions : List α} {s : σ} (hs : inv s)
    (hok : Along step ok s actions) : Along step met s actions := by
  induction actions generalizing s with
  | nil => exact True.intro
  | cons a rest ih => exact ⟨hmet s a hs hok.1, ih (hstep s a hs hok.1) hok.2⟩

variable (clean) in
/-- A property which a clean step keeps exactly when it meets a condition holds in every state of a
run exactly when every step meets the condition. -/
theorem everywhere_iff (hstep : ∀ s a, clean s → (clean (step s a) ↔ met s a))
    {actions : List α} {s : σ} (hs : clean s) :
    Along step (fun s a ↦ clean (step s a)) s actions ↔ Along step met s actions := by
  induction actions generalizing s with
  | nil => exact Iff.rfl
  | cons a rest ih =>
    constructor
    · intro h
      exact ⟨(hstep s a hs).mp h.1, (ih h.1).mp h.2⟩
    · intro h
      have hnext := (hstep s a hs).mpr h.1
      exact ⟨hnext, (ih hnext).mpr h.2⟩

/-- Steps without a condition. -/
theorem trivial (s : σ) (actions : List α) : Along step (fun _ _ ↦ True) s actions := by
  induction actions generalizing s with
  | nil => exact True.intro
  | cons a rest ih => exact ⟨True.intro, ih _⟩

/-- A condition along a run holds at each of its steps. -/
theorem of_append {front : List α} {a : α} {back : List α} {s : σ}
    (h : Along step ok s (front ++ a :: back)) : ok (front.foldl step s) a := by
  induction front generalizing s with
  | nil => exact h.1
  | cons b front ih => exact ih h.2

end Along

end AgentOdometer
