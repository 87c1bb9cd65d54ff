import Mathlib.Algebra.BigOperators.Group.List.Basic

/-!
# Lists stored run by run

A list of runs stands for a longer list: each of its entries stands for a run of consecutive
entries there. What a reader sees of an entry it sees of the run.
-/

namespace AgentOdometer

variable {α β γ δ : Type} {R : α → List β → Prop}

/-- The second list is the first one with a run for each entry. -/
inductive Expands (R : α → List β → Prop) : List α → List β → Prop
  | nil : Expands R [] []
  | cons {a : α} {run : List β} {as : List α} {bs : List β} (hrun : R a run)
      (hrest : Expands R as bs) : Expands R (a :: as) (run ++ bs)

namespace Expands

theorem singleton {a : α} {run : List β} (h : R a run) : Expands R [a] run := by
  have hcons := Expands.cons h .nil
  rw [List.append_nil] at hcons
  exact hcons

theorem append {as as' : List α} {bs bs' : List β} (h : Expands R as bs)
    (h' : Expands R as' bs') : Expands R (as ++ as') (bs ++ bs') := by
  induction h with
  | nil => exact h'
  | cons hrun _ ih =>
    rw [List.append_assoc]
    exact .cons hrun ih

theorem eq_nil {bs : List β} (h : Expands R [] bs) : bs = [] := by
  cases h
  rfl

/-- The run of the last entry ends the longer list. -/
theorem concat_inv {as : List α} {a : α} {bs : List β} (h : Expands R (as ++ [a]) bs) :
    ∃ front run, bs = front ++ run ∧ Expands R as front ∧ R a run := by
  induction as generalizing bs with
  | nil =>
    cases h with
    | cons hrun hrest =>
      rw [hrest.eq_nil, List.append_nil]
      exact ⟨[], _, rfl, .nil, hrun⟩
  | cons a' as ih =>
    cases h with
    | cons hrun hrest =>
      obtain ⟨front, run, rfl, hfront, hlast⟩ := ih hrest
      exact ⟨_, run, (List.append_assoc _ _ _).symm, .cons hrun hfront, hlast⟩

theorem mono {S : α → List β → Prop} (hRS : ∀ a run, R a run → S a run) {as : List α}
    {bs : List β} (h : Expands R as bs) : Expands S as bs := by
  induction h with
  | nil => exact .nil
  | cons hrun _ ih => exact .cons (hRS _ _ hrun) ih

/-- Every entry has a run in the longer list. -/
theorem exists_run {as : List α} {bs : List β} (h : Expands R as bs) {a : α} (ha : a ∈ as) :
    ∃ run, R a run ∧ ∀ b ∈ run, b ∈ bs := by
  induction h with
  | nil => exact nomatch ha
  | @cons a' run as bs hrun _ ih =>
    rcases List.mem_cons.mp ha with rfl | ha
    · exact ⟨run, hrun, fun b hb ↦ List.mem_append_left bs hb⟩
    · obtain ⟨run', hrun', hmem⟩ := ih ha
      exact ⟨run', hrun', fun b hb ↦ List.mem_append_right run (hmem b hb)⟩

/-- The same lists read backwards. -/
theorem reverse {as : List α} {bs : List β} (h : Expands R as bs) :
    Expands (fun a run ↦ R a run.reverse) as.reverse bs.reverse := by
  induction h with
  | nil => exact .nil
  | cons hrun _ ih =>
    rw [List.reverse_cons, List.reverse_append]
    exact ih.append (.singleton (by rwa [List.reverse_reverse]))

/-- Readers which map an entry and the entries of its run, or leave all of them out. -/
theorem filterMap {S : γ → List δ → Prop} {f : α → Option γ} {g : β → Option δ}
    (hnone : ∀ a run, R a run → f a = none → run.filterMap g = [])
    (hsome : ∀ a run c, R a run → f a = some c → S c (run.filterMap g)) {as : List α}
    {bs : List β} (h : Expands R as bs) : Expands S (as.filterMap f) (bs.filterMap g) := by
  induction h with
  | nil => exact .nil
  | cons hrun _ ih =>
    rw [List.filterMap_append]
    cases hf : f _ with
    | none =>
      rw [List.filterMap_cons_none hf, hnone _ _ hrun hf]
      exact ih
    | some c =>
      rw [List.filterMap_cons_some hf]
      exact .cons (hsome _ _ c hrun hf) ih

/-- Readers which keep an entry and its whole run, or leave all of it out. -/
theorem filter {as : List α} {bs : List β} {p : α → Bool} {q : β → Bool} (h : Expands R as bs)
    (hpq : ∀ a run, a ∈ as → R a run → (∀ b ∈ run, b ∈ bs) → ∀ b ∈ run, q b = p a) :
    Expands R (as.filter p) (bs.filter q) := by
  induction h with
  | nil => exact .nil
  | @cons a run as bs hrun hrest ih =>
    have hall := hpq a run List.mem_cons_self hrun fun b hb ↦ List.mem_append_left bs hb
    have hrest := ih fun a' run' ha' hrun' hmem ↦
      hpq a' run' (List.mem_cons_of_mem a ha') hrun' fun b hb ↦
        List.mem_append_right run (hmem b hb)
    rw [List.filter_append]
    cases hp : p a with
    | true =>
      rw [List.filter_cons_of_pos hp, List.filter_eq_self.mpr fun b hb ↦ (hall b hb).trans hp]
      exact .cons hrun hrest
    | false =>
      rw [List.filter_cons_of_neg (by simp [hp]),
        (List.filter_eq_nil_iff (l := run)).mpr fun b hb ↦ by simp [hall b hb, hp]]
      exact hrest

/-- Sums over the entries and over the runs. -/
theorem sum_eq {M : Type} [AddCommMonoid M] {f : α → M} {g : β → M}
    (hfg : ∀ a run, R a run → f a = (run.map g).sum) {as : List α} {bs : List β}
    (h : Expands R as bs) : (as.map f).sum = (bs.map g).sum := by
  induction h with
  | nil => rfl
  | cons hrun _ ih =>
    rw [List.map_cons, List.sum_cons, List.map_append, List.sum_append, ih, hfg _ _ hrun]

/-- Entries whose runs are not empty: the first run begins the longer list. -/
theorem head?_eq (hne : ∀ a run, R a run → run ≠ []) {as : List α} {bs : List β}
    (h : Expands R as bs) : (as.head? = none ∧ bs.head? = none) ∨
      ∃ a run b, as.head? = some a ∧ R a run ∧ run.head? = some b ∧ bs.head? = some b := by
  cases h with
  | nil => exact Or.inl ⟨rfl, rfl⟩
  | @cons a run as bs hrun _ =>
    obtain ⟨b, rest, rfl⟩ := List.exists_cons_of_ne_nil (hne a run hrun)
    exact Or.inr ⟨a, b :: rest, b, rfl, hrun, rfl, rfl⟩

/-- Entries whose runs are not empty: the last run ends the longer list. -/
theorem getLast?_eq (hne : ∀ a run, R a run → run ≠ []) {as : List α} {bs : List β}
    (h : Expands R as bs) : (as.getLast? = none ∧ bs.getLast? = none) ∨
      ∃ a run b, as.getLast? = some a ∧ R a run ∧ run.getLast? = some b ∧
        bs.getLast? = some b := by
  rcases h.reverse.head?_eq fun a run hrun hnil ↦ hne a _ hrun (by rw [hnil]; rfl) with
    ⟨has, hbs⟩ | ⟨a, run, b, has, hrun, hhead, hbs⟩
  · rw [List.head?_reverse] at has hbs
    exact Or.inl ⟨has, hbs⟩
  · rw [List.head?_reverse] at has hbs
    exact Or.inr ⟨a, run.reverse, b, has, hrun, by rw [List.getLast?_reverse]; exact hhead, hbs⟩

end Expands

end AgentOdometer
