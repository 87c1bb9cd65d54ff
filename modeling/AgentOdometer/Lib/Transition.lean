import Mathlib.Logic.Relation

/-!
# Runs of a guarded transition function

A system is a partial step function on a state and an action. `Via ok` is one step whose
pre-state and action satisfy the side condition `ok`; `Reaches ok` is its closure. Safety
arguments provide one preservation lemma for a step and receive the run from
`Reaches.invariant`.
-/

namespace AgentOdometer.Transition

variable {σ α : Type} {step : σ → α → Option σ} {ok ok' : σ → α → Prop} {s t u : σ}

/-- One successful step whose pre-state and action meet `ok`. -/
def Via (step : σ → α → Option σ) (ok : σ → α → Prop) (s t : σ) : Prop :=
  ∃ a, ok s a ∧ step s a = some t

/-- Finitely many steps, each meeting `ok`. -/
def Reaches (step : σ → α → Option σ) (ok : σ → α → Prop) : σ → σ → Prop :=
  Relation.ReflTransGen (Via step ok)

/-- Steps without a side condition. -/
def always (_ : σ) (_ : α) : Prop :=
  True

/-- Run a list of actions, stopping at the first one that is not enabled. -/
def run (step : σ → α → Option σ) : σ → List α → Option σ
  | s, [] => some s
  | s, a :: as => (step s a).bind fun t ↦ run step t as

/-- A run of zero steps. -/
theorem Reaches.refl (s : σ) : Reaches step ok s s :=
  Relation.ReflTransGen.refl

/-- Extend a run by one step at its end. -/
theorem Reaches.tail {a : α} (h : Reaches step ok s t) (hok : ok t a)
    (hstep : step t a = some u) : Reaches step ok s u :=
  Relation.ReflTransGen.tail h ⟨a, hok, hstep⟩

/-- Extend a run by one step at its start. -/
theorem Reaches.head {a : α} (hok : ok s a) (hstep : step s a = some t)
    (h : Reaches step ok t u) : Reaches step ok s u :=
  Relation.ReflTransGen.head ⟨a, hok, hstep⟩ h

/-- A property of the initial state preserved by every admitted step holds after every run. -/
theorem Reaches.invariant {inv : σ → Prop}
    (hstep : ∀ s a t, inv s → ok s a → step s a = some t → inv t)
    (h : Reaches step ok s t) (hs : inv s) : inv t := by
  induction h with
  | refl => exact hs
  | tail _ hvia ih =>
    obtain ⟨a, hok, ht⟩ := hvia
    exact hstep _ a _ ih hok ht

/-- A weaker side condition admits at least the same runs. -/
theorem Reaches.mono (hweaker : ∀ s a, ok s a → ok' s a) (h : Reaches step ok s t) :
    Reaches step ok' s t := by
  refine Relation.ReflTransGen.mono ?_ _ _ h
  intro a b hvia
  obtain ⟨x, hok, hx⟩ := hvia
  exact ⟨x, hweaker a x hok, hx⟩

/-- A successful list of actions which all meet the side condition is a run. -/
theorem reaches_of_run_of_forall (as : List α) (hok : ∀ s, ∀ a ∈ as, ok s a)
    (h : run step s as = some t) : Reaches step ok s t := by
  induction as generalizing s with
  | nil =>
    simp only [run, Option.some.injEq] at h
    subst h
    exact Reaches.refl s
  | cons a as ih =>
    simp only [run] at h
    cases hs : step s a with
    | none => simp [hs] at h
    | some s' =>
      rw [hs, Option.bind_some] at h
      exact Reaches.head (hok s a List.mem_cons_self) hs
        (ih (fun s a ha ↦ hok s a (List.mem_cons_of_mem _ ha)) h)

/-- A successful list of actions is an unconditional run. -/
theorem reaches_of_run (as : List α) (h : run step s as = some t) :
    Reaches step always s t :=
  reaches_of_run_of_forall as (fun _ _ _ ↦ trivial) h

end AgentOdometer.Transition
