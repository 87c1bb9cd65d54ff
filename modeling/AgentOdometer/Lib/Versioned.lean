import AgentOdometer.Lib.Transition
import Mathlib.Order.BoundedOrder.Basic

/-!
# Versioned contents

States whose contents are read under keys, each with a version. A step advances when every key
either keeps its version and its content or gains a greater version. After any number of such
steps an unchanged version means an unchanged content. Versions at the top are exhausted:
nothing can be learnt from them.
-/

namespace AgentOdometer

/-- How the version and the content of a key are read from a state. -/
structure Versioned (σ κ V χ : Type) where
  version : σ → κ → V
  content : σ → κ → χ

namespace Versioned

variable {σ κ V χ : Type} [PartialOrder V] [OrderTop V] (S : Versioned σ κ V χ)

/-- Every key keeps its version and content, gains a greater version, or stays exhausted. -/
def Advances (s t : σ) : Prop :=
  ∀ k, S.version s k < S.version t k ∨
    (S.version s k = S.version t k ∧ (S.version s k = ⊤ ∨ S.content s k = S.content t k))

variable {S} {s t u : σ} {k : κ}

theorem Advances.refl (s : σ) : S.Advances s s :=
  fun _ ↦ .inr ⟨rfl, .inr rfl⟩

theorem Advances.version_le (h : S.Advances s t) (k : κ) : S.version s k ≤ S.version t k := by
  rcases h k with hlt | ⟨heq, -⟩
  · exact hlt.le
  · exact heq.le

theorem Advances.trans (h : S.Advances s t) (h' : S.Advances t u) : S.Advances s u := by
  intro k
  rcases h k with hlt | ⟨heq, hsame⟩
  · exact .inl (hlt.trans_le (h'.version_le k))
  · rcases h' k with hlt' | ⟨heq', hsame'⟩
    · exact .inl (heq ▸ hlt')
    · refine .inr ⟨heq.trans heq', ?_⟩
      rcases hsame with htop | hsame
      · exact .inl htop
      · rcases hsame' with htop' | hsame'
        · exact .inl (heq.trans htop')
        · exact .inr (hsame.trans hsame')

/-- An unchanged version means an unchanged content. -/
theorem Advances.content_eq (h : S.Advances s t) (heq : S.version s k = S.version t k)
    (htop : S.version t k ≠ ⊤) : S.content s k = S.content t k := by
  rcases h k with hlt | ⟨-, hexhausted | hsame⟩
  · exact absurd heq hlt.ne
  · exact absurd (heq.symm.trans hexhausted) htop
  · exact hsame

/-- A run whose steps advance advances. -/
theorem advances_of_reaches {α : Type} {step : σ → α → Option σ} {ok : σ → α → Prop}
    {inv : σ → Prop} (hinv : ∀ s a t, inv s → ok s a → step s a = some t → inv t)
    (hstep : ∀ s a t, inv s → ok s a → step s a = some t → S.Advances s t)
    (h : Transition.Reaches step ok s t) (hs : inv s) : S.Advances s t := by
  induction h with
  | refl => exact Advances.refl s
  | tail hrun hvia ih =>
    obtain ⟨a, hok, ht⟩ := hvia
    exact ih.trans (hstep _ a _ (Transition.Reaches.invariant hinv hrun hs) hok ht)

end Versioned

end AgentOdometer
