import Mathlib.Logic.Relation

/-!
# Programs beside others

A program is a tree of calls on a world which others change between any two calls. A call acts in
one step, is refused, or fails after a part of its effect. `Ensures` is the weakest precondition
of a program which also bounds what each of its calls changes, so what it preserves holds wherever
the program is cut.
-/

namespace AgentOdometer

/-- A program whose calls are named in `ι` and act on worlds in `W`. A call passes on the world
before it, or nothing when it was refused or failed; the number of a failure selects how much of
the call has happened. -/
inductive Program (ι W ε α : Type) : Type where
  | ok (result : α)
  | error (e : ε)
  | call (op : ι) (act : W → Option W) (torn : Nat → W → W)
      (next : Option W → Program ι W ε α)

namespace Program

variable {ι κ W ε α β : Type}

/-- Sequential composition; an error ends the program. -/
def bind : Program ι W ε α → (α → Program ι W ε β) → Program ι W ε β
  | ok result, k => k result
  | error e, _ => error e
  | call op act torn next, k => call op act torn fun r ↦ (next r).bind k

instance : Monad (Program ι W ε) where
  pure := ok
  bind := bind

/-- The result of a program as a value. -/
def attempt : Program ι W ε α → Program ι W ε (Except ε α)
  | ok result => ok (.ok result)
  | error e => ok (.error e)
  | call op act torn next => call op act torn fun r ↦ (next r).attempt

/-- Rename the calls. -/
def tag (f : ι → κ) : Program ι W ε α → Program κ W ε α
  | ok result => ok result
  | error e => error e
  | call op act torn next => call (f op) act torn fun r ↦ (next r).tag f

/-- A pure result. -/
def ofExcept : Except ε α → Program ι W ε α
  | .ok result => ok result
  | .error e => error e

/-- A call which reads the world; it ends the program with `fault` when it fails. -/
def read (op : ι) (fault : ε) (f : W → Except ε α) : Program ι W ε α :=
  call op some (fun _ w ↦ w) fun
    | none => error fault
    | some w => ofExcept (f w)

/-- A call which writes; it ends the program with `fault` when it is refused or fails. -/
def write (op : ι) (fault : ε) (act : W → Option W) (torn : Nat → W → W) :
    Program ι W ε Unit :=
  call op act torn fun
    | none => error fault
    | some _ => ok ()

/-- The undisturbed run. -/
def run : Program ι W ε α → W → Except ε α × W
  | ok result, w => (.ok result, w)
  | error e, w => (.error e, w)
  | call _ act _ next, w =>
      match act w with
      | some w' => (next (some w)).run w'
      | none => (next none).run w

/-! ### Runs beside others -/

/-- What happens around a program: what others do between two calls, and which calls may fail, with
what a failure leaves of the world besides the part of the call. -/
structure Surroundings (ι W : Type) where
  others : W → W → Prop
  fails : ι → W → W → Prop

/-- The runs of a program to its end. -/
inductive Completes (s : Surroundings ι W) :
    Program ι W ε α → W → Except ε α → W → Prop where
  | ok {result : α} {w : W} : Completes s (.ok result) w (.ok result) w
  | error {e : ε} {w : W} : Completes s (.error e) w (.error e) w
  | done {op act torn next w w₁ w₂ r w'} : s.others w w₁ → act w₁ = some w₂ →
      Completes s (next (some w₁)) w₂ r w' → Completes s (.call op act torn next) w r w'
  | refused {op act torn next w w₁ r w'} : s.others w w₁ → act w₁ = none →
      Completes s (next none) w₁ r w' → Completes s (.call op act torn next) w r w'
  | failed {op act torn next w w₁ w₂ r w'} (n : Nat) : s.others w w₁ → s.fails op w₁ w₂ →
      Completes s (next none) (torn n w₂) r w' → Completes s (.call op act torn next) w r w'

/-- Whatever happens around the program, each of its calls changes the world within `G`, and its
result and its last world satisfy `Q`. -/
def Ensures (s : Surroundings ι W) (G : W → W → Prop) :
    Program ι W ε α → (Except ε α → W → Prop) → W → Prop
  | ok result, Q, w => Q (.ok result) w
  | error e, Q, w => Q (.error e) w
  | call op act torn next, Q, w => ∀ w₁, s.others w w₁ →
      (∀ w₂, act w₁ = some w₂ → G w₁ w₂ ∧ (next (some w₁)).Ensures s G Q w₂) ∧
      (act w₁ = none → (next none).Ensures s G Q w₁) ∧
      (∀ w₂ n, s.fails op w₁ w₂ → G w₁ (torn n w₂) ∧ (next none).Ensures s G Q (torn n w₂))

section Rules

variable {s : Surroundings ι W} {G : W → W → Prop} {w : W}

@[simp]
theorem ensures_ok {result : α} {Q : Except ε α → W → Prop} :
    (Program.ok result : Program ι W ε α).Ensures s G Q w ↔ Q (.ok result) w :=
  Iff.rfl

@[simp]
theorem ensures_pure {result : α} {Q : Except ε α → W → Prop} :
    (pure result : Program ι W ε α).Ensures s G Q w ↔ Q (.ok result) w :=
  Iff.rfl

@[simp]
theorem ensures_error {e : ε} {Q : Except ε α → W → Prop} :
    (Program.error e : Program ι W ε α).Ensures s G Q w ↔ Q (.error e) w :=
  Iff.rfl

theorem ensures_call {op : ι} {act : W → Option W} {torn : Nat → W → W}
    {next : Option W → Program ι W ε α} {Q : Except ε α → W → Prop} :
    (Program.call op act torn next).Ensures s G Q w ↔ ∀ w₁, s.others w w₁ →
      (∀ w₂, act w₁ = some w₂ → G w₁ w₂ ∧ (next (some w₁)).Ensures s G Q w₂) ∧
      (act w₁ = none → (next none).Ensures s G Q w₁) ∧
      (∀ w₂ n, s.fails op w₁ w₂ →
        G w₁ (torn n w₂) ∧ (next none).Ensures s G Q (torn n w₂)) :=
  Iff.rfl

/-- What follows a result: the rest of the program, or nothing after an error. -/
def After (s : Surroundings ι W) (G : W → W → Prop) (k : α → Program ι W ε β)
    (Q : Except ε β → W → Prop) : Except ε α → W → Prop
  | .ok result, w => (k result).Ensures s G Q w
  | .error e, w => Q (.error e) w

@[simp]
theorem after_ok {k : α → Program ι W ε β} {Q : Except ε β → W → Prop} {result : α} :
    After s G k Q (.ok result) w ↔ (k result).Ensures s G Q w :=
  Iff.rfl

@[simp]
theorem after_error {k : α → Program ι W ε β} {Q : Except ε β → W → Prop} {e : ε} :
    After s G k Q (.error e) w ↔ Q (.error e) w :=
  Iff.rfl

theorem ensures_bind {p : Program ι W ε α} {k : α → Program ι W ε β}
    {Q : Except ε β → W → Prop} :
    (p >>= k).Ensures s G Q w ↔ p.Ensures s G (After s G k Q) w := by
  show (p.bind k).Ensures s G Q w ↔ _
  induction p generalizing w with
  | ok => exact Iff.rfl
  | error => exact Iff.rfl
  | call op act torn next ih => simp only [bind, Ensures, ih]

theorem Ensures.mono {p : Program ι W ε α} {Q Q' : Except ε α → W → Prop}
    (h : p.Ensures s G Q w) (hQ : ∀ r w, Q r w → Q' r w) : p.Ensures s G Q' w := by
  induction p generalizing w with
  | ok => exact hQ _ _ h
  | error => exact hQ _ _ h
  | call op act torn next ih =>
    intro w₁ hothers
    obtain ⟨hdone, hrefused, hfailed⟩ := h w₁ hothers
    exact ⟨fun w₂ hact ↦ ⟨(hdone w₂ hact).1, ih _ (hdone w₂ hact).2⟩,
      fun hact ↦ ih _ (hrefused hact),
      fun w₂ n hfails ↦ ⟨(hfailed w₂ n hfails).1, ih _ (hfailed w₂ n hfails).2⟩⟩

/-- The bound on what the calls change may be raised. -/
theorem Ensures.mono_rel {G' : W → W → Prop} {p : Program ι W ε α}
    {Q : Except ε α → W → Prop} (h : p.Ensures s G Q w) (hG : ∀ a b, G a b → G' a b) :
    p.Ensures s G' Q w := by
  induction p generalizing w with
  | ok => exact h
  | error => exact h
  | call op act torn next ih =>
    intro w₁ hothers
    obtain ⟨hdone, hrefused, hfailed⟩ := h w₁ hothers
    exact ⟨fun w₂ hact ↦ ⟨hG _ _ (hdone w₂ hact).1, ih _ (hdone w₂ hact).2⟩,
      fun hact ↦ ih _ (hrefused hact),
      fun w₂ n hfails ↦ ⟨hG _ _ (hfailed w₂ n hfails).1, ih _ (hfailed w₂ n hfails).2⟩⟩

theorem ensures_attempt {p : Program ι W ε α} {Q : Except ε (Except ε α) → W → Prop} :
    p.attempt.Ensures s G Q w ↔ p.Ensures s G (fun r w ↦ Q (.ok r) w) w := by
  induction p generalizing w with
  | ok => exact Iff.rfl
  | error => exact Iff.rfl
  | call op act torn next ih => simp only [attempt, Ensures, ih]

theorem ensures_tag {t : Surroundings κ W} {f : ι → κ} {p : Program ι W ε α}
    {Q : Except ε α → W → Prop} :
    (p.tag f).Ensures t G Q w ↔ p.Ensures ⟨t.others, fun op ↦ t.fails (f op)⟩ G Q w := by
  induction p generalizing w with
  | ok => exact Iff.rfl
  | error => exact Iff.rfl
  | call op act torn next ih => simp only [tag, Ensures, ih]

@[simp]
theorem ensures_ofExcept {x : Except ε α} {Q : Except ε α → W → Prop} :
    (ofExcept x : Program ι W ε α).Ensures s G Q w ↔ Q x w := by
  cases x <;> exact Iff.rfl

/-- A pure result is passed on. -/
theorem ensures_ofExcept_bind {x : Except ε α} {result : α} (hx : x = .ok result)
    {k : α → Program ι W ε β} {Q : Except ε β → W → Prop} :
    (ofExcept x >>= k : Program ι W ε β).Ensures s G Q w ↔ (k result).Ensures s G Q w := by
  subst hx
  exact Iff.rfl

/-- A read changes nothing but what its failure does. -/
theorem ensures_read {op : ι} {fault : ε} {f : W → Except ε α} {Q : Except ε α → W → Prop}
    (h : ∀ w₁, s.others w w₁ → G w₁ w₁ ∧ Q (f w₁) w₁ ∧
      ∀ w₂, s.fails op w₁ w₂ → G w₁ w₂ ∧ Q (.error fault) w₂) :
    (read op fault f).Ensures s G Q w := by
  intro w₁ hothers
  obtain ⟨hG, hQ, hfails⟩ := h w₁ hothers
  refine ⟨fun w₂ hact ↦ ?_, (fun hact ↦ nomatch hact), fun w₂ _ hfail ↦ hfails w₂ hfail⟩
  cases hact
  exact ⟨hG, ensures_ofExcept.mpr hQ⟩

/-- A program ensures no less where less happens. -/
theorem Ensures.mono_surroundings {t : Surroundings ι W} {p : Program ι W ε α}
    {Q : Except ε α → W → Prop} (h : p.Ensures s G Q w)
    (hothers : ∀ a b, t.others a b → s.others a b)
    (hfails : ∀ op a b, t.fails op a b → s.fails op a b) : p.Ensures t G Q w := by
  induction p generalizing w with
  | ok => exact h
  | error => exact h
  | call op act torn next ih =>
    intro w₁ hw₁
    obtain ⟨hdone, hrefused, hfailed⟩ := h w₁ (hothers _ _ hw₁)
    exact ⟨fun w₂ hact ↦ ⟨(hdone w₂ hact).1, ih _ (hdone w₂ hact).2⟩,
      fun hact ↦ ih _ (hrefused hact),
      fun w₂ n hfail ↦ ⟨(hfailed w₂ n (hfails _ _ _ hfail)).1,
        ih _ (hfailed w₂ n (hfails _ _ _ hfail)).2⟩⟩

/-- Programs are cut and continued: what holds before the acts of others holds after them. -/
theorem Ensures.of_others {p : Program ι W ε α} {Q : Except ε α → W → Prop} {w' : W}
    (htrans : ∀ a b c, s.others a b → s.others b c → s.others a c)
    (hQ : ∀ r a b, s.others a b → Q r a → Q r b) (h : p.Ensures s G Q w)
    (hothers : s.others w w') : p.Ensures s G Q w' := by
  cases p with
  | ok => exact hQ _ _ _ hothers h
  | error => exact hQ _ _ _ hothers h
  | call op act torn next => exact fun w₁ h₁ ↦ h w₁ (htrans _ _ _ hothers h₁)

/-- A relation which contains what others do and what the calls do holds from the first to the last
world. -/
theorem Ensures.and_of_rel {R : W → W → Prop} (htrans : ∀ a b c, R a b → R b c → R a c)
    (hothers : ∀ a b, s.others a b → R a b) (hG : ∀ a b, G a b → R a b) {w₀ : W}
    {p : Program ι W ε α} {Q : Except ε α → W → Prop} (h : p.Ensures s G Q w) (h₀ : R w₀ w) :
    p.Ensures s G (fun r w' ↦ Q r w' ∧ R w₀ w') w := by
  induction p generalizing w with
  | ok => exact ⟨h, h₀⟩
  | error => exact ⟨h, h₀⟩
  | call op act torn next ih =>
    intro w₁ hw₁
    have h₁ := htrans _ _ _ h₀ (hothers _ _ hw₁)
    obtain ⟨hdone, hrefused, hfailed⟩ := h w₁ hw₁
    exact ⟨fun w₂ hact ↦ ⟨(hdone w₂ hact).1,
        ih _ (hdone w₂ hact).2 (htrans _ _ _ h₁ (hG _ _ (hdone w₂ hact).1))⟩,
      fun hact ↦ ih _ (hrefused hact) h₁,
      fun w₂ n hfails ↦ ⟨(hfailed w₂ n hfails).1,
        ih _ (hfailed w₂ n hfails).2 (htrans _ _ _ h₁ (hG _ _ (hfailed w₂ n hfails).1))⟩⟩

/-- What a program ensures holds of every completed run. -/
theorem Completes.of_ensures {p : Program ι W ε α} {Q : Except ε α → W → Prop}
    {r : Except ε α} {w' : W} (h : Completes s p w r w') (hp : p.Ensures s G Q w) : Q r w' := by
  induction h with
  | ok => exact hp
  | error => exact hp
  | done hothers hact _ ih => exact ih ((hp _ hothers).1 _ hact).2
  | refused hothers hact _ ih => exact ih ((hp _ hothers).2.1 hact)
  | failed n hothers hfails _ ih => exact ih ((hp _ hothers).2.2 _ n hfails).2

/-- What a program ensures holds of its undisturbed run. -/
theorem Ensures.run {p : Program ι W ε α} {Q : Except ε α → W → Prop}
    (hrefl : ∀ a, s.others a a) (h : p.Ensures s G Q w) : Q (p.run w).1 (p.run w).2 := by
  induction p generalizing w with
  | ok => exact h
  | error => exact h
  | call op act torn next ih =>
    obtain ⟨hdone, hrefused, -⟩ := h w (hrefl w)
    show Q (Program.run (.call op act torn next) w).1 (Program.run (.call op act torn next) w).2
    rw [Program.run]
    cases hact : act w with
    | none => exact ih _ (hrefused hact)
    | some w' => exact ih _ (hdone w' hact).2

/-- The undisturbed run is a run beside others who may do nothing. -/
theorem completes_run (p : Program ι W ε α) (hrefl : ∀ a, s.others a a) (w : W) :
    Completes s p w (p.run w).1 (p.run w).2 := by
  induction p generalizing w with
  | ok => exact .ok
  | error => exact .error
  | call op act torn next ih =>
    rw [Program.run]
    cases hact : act w with
    | none => exact .refused (hrefl w) hact (ih _ w)
    | some w' => exact .done (hrefl w) hact (ih _ w')

end Rules

-- a condition in a program is not evaluated to see what the program ensures
attribute [irreducible] Ensures

end Program

end AgentOdometer
