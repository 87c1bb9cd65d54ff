import Mathlib.Data.List.Basic

/-!
# Loops which may give up

Rules for `foldlM` in `Option`: what every round keeps a completed loop keeps, what a round
establishes holds at the end, and a loop all of whose rounds complete completes.
-/

namespace AgentOdometer.OptionFold

variable {α β : Type} {f g : β → α → Option β} {l : List α} {b b' : β}

theorem foldlM_cons_eq_some {a : α} : (a :: l).foldlM f b = some b' ↔
    ∃ c, f b a = some c ∧ l.foldlM f c = some b' := by
  rw [List.foldlM_cons]
  cases f b a with
  | none => simp
  | some c => simp

/-- An invariant of the rounds. -/
theorem invariant {P : β → Prop}
    (hstep : ∀ a ∈ l, ∀ b b', P b → f b a = some b' → P b')
    (hloop : l.foldlM f b = some b') (hb : P b) : P b' := by
  induction l generalizing b with
  | nil => exact (Option.some.inj hloop) ▸ hb
  | cons a l ih =>
    obtain ⟨c, hc, hrest⟩ := foldlM_cons_eq_some.mp hloop
    exact ih (fun a ha ↦ hstep a (List.mem_cons_of_mem _ ha)) hrest
      (hstep a List.mem_cons_self b c hb hc)

/-- The rounds move along a preorder, and what each establishes is kept by the later ones. -/
theorem moves {R : β → β → Prop} (hrefl : ∀ b, R b b) (htrans : ∀ {b c d}, R b c → R c d → R b d)
    {Q : α → β → Prop} (hkeep : ∀ {a b c}, Q a b → R b c → Q a c)
    (hstep : ∀ a ∈ l, ∀ b b', f b a = some b' → R b b' ∧ Q a b')
    (hloop : l.foldlM f b = some b') : R b b' ∧ ∀ a ∈ l, Q a b' := by
  induction l generalizing b with
  | nil => exact ⟨(Option.some.inj hloop) ▸ hrefl b, fun _ h ↦ nomatch h⟩
  | cons a l ih =>
    obtain ⟨c, hc, hrest⟩ := foldlM_cons_eq_some.mp hloop
    obtain ⟨hbc, hQ⟩ := hstep a List.mem_cons_self b c hc
    obtain ⟨hcb, hQs⟩ := ih (fun a ha ↦ hstep a (List.mem_cons_of_mem _ ha)) hrest
    exact ⟨htrans hbc hcb, List.forall_mem_cons.mpr ⟨hkeep hQ hcb, hQs⟩⟩

/-- A loop completes when its rounds do. -/
theorem completes {P : β → Prop} (hstep : ∀ a ∈ l, ∀ b, P b → ∃ b', f b a = some b' ∧ P b')
    (hb : P b) : ∃ b', l.foldlM f b = some b' ∧ P b' := by
  induction l generalizing b with
  | nil => exact ⟨b, rfl, hb⟩
  | cons a l ih =>
    obtain ⟨c, hc, hPc⟩ := hstep a List.mem_cons_self b hb
    obtain ⟨b', hb', hPb'⟩ := ih (fun a ha ↦ hstep a (List.mem_cons_of_mem _ ha)) hPc
    exact ⟨b', foldlM_cons_eq_some.mpr ⟨c, hc, hb'⟩, hPb'⟩

/-- A loop whose rounds complete more often completes more often. -/
theorem mono (hstep : ∀ a ∈ l, ∀ b b', f b a = some b' → g b a = some b')
    (hloop : l.foldlM f b = some b') : l.foldlM g b = some b' := by
  induction l generalizing b with
  | nil => exact hloop
  | cons a l ih =>
    obtain ⟨c, hc, hrest⟩ := foldlM_cons_eq_some.mp hloop
    exact foldlM_cons_eq_some.mpr ⟨c, hstep a List.mem_cons_self b c hc,
      ih (fun a ha ↦ hstep a (List.mem_cons_of_mem _ ha)) hrest⟩

/-- A loop whose rounds do nothing does nothing. -/
theorem idle (hstep : ∀ a ∈ l, f b a = some b) : l.foldlM f b = some b := by
  induction l with
  | nil => rfl
  | cons a l ih =>
    exact foldlM_cons_eq_some.mpr ⟨b, hstep a List.mem_cons_self,
      ih fun a ha ↦ hstep a (List.mem_cons_of_mem _ ha)⟩

end AgentOdometer.OptionFold
