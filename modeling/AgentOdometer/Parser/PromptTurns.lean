import AgentOdometer.Lib.Along
import AgentOdometer.Model.TokenOrder
import AgentOdometer.Parser.Claude
import AgentOdometer.Parser.Gemini
import AgentOdometer.Parser.TurnList

/-!
# Turns which prompts open

The turns of Claude Code and Gemini CLI transcripts (`claude_parser.rs:347–389,519–587`,
`gemini_parser.rs:235–277,326–375`). A prompt opens a turn under the id of its record without a
look at the turns before it, so an id which comes again is a second turn of that id.
-/

namespace AgentOdometer.Parser

/-! ### Changing the first turn of an id -/

section ModifyFirst

variable {α β : Type} {p q : α → Bool} {f : α → α}

/-- Entries in front which do not satisfy the predicate stay. -/
theorem modifyFirst_append {front : List α} (hfront : ∀ a ∈ front, p a = false) (back : List α) :
    modifyFirst p f (front ++ back) = front ++ modifyFirst p f back := by
  induction front with
  | nil => rfl
  | cons a front ih =>
    rw [List.cons_append, modifyFirst, if_neg (by simp [hfront a List.mem_cons_self]), ih]
    · rfl
    · exact fun b hb ↦ hfront b (List.mem_cons_of_mem a hb)

/-- What a change does not touch stays in every entry. -/
theorem map_modifyFirst {g : α → β} (hg : ∀ a, g (f a) = g a) (l : List α) :
    (modifyFirst p f l).map g = l.map g := by
  induction l with
  | nil => rfl
  | cons a rest ih =>
    unfold modifyFirst
    split
    · rw [List.map_cons, List.map_cons, hg]
    · rw [List.map_cons, List.map_cons, ih]

/-- A count grows by one when the changed entry was not counted and is from then on. -/
theorem countP_modifyFirst (hf : ∀ a, q a = true → q (f a) = true) (l : List α) :
    (modifyFirst p f l).countP q =
      l.countP q + if (l.find? p).any (fun a ↦ !q a && q (f a)) then 1 else 0 := by
  induction l with
  | nil => rfl
  | cons a rest ih =>
    unfold modifyFirst
    by_cases hp : p a = true
    · rw [if_pos hp, List.find?_cons_of_pos hp, List.countP_cons, List.countP_cons,
        Option.any_some]
      cases hq : q a with
      | true => simp [hf a hq]
      | false => simp
    · rw [if_neg hp, List.find?_cons_of_neg hp, List.countP_cons, List.countP_cons, ih,
        add_right_comm]

/-- A sum grows by at most what is added to one entry. -/
theorem sum_modifyFirst_le {g : α → TokenTotals} {delta : TokenTotals}
    (hg : ∀ a, g (f a) = g a + delta) (l : List α) :
    ((modifyFirst p f l).map g).sum ≤ (l.map g).sum + delta := by
  induction l with
  | nil => exact zero_le
  | cons a rest ih =>
    unfold modifyFirst
    split
    · rw [List.map_cons, List.map_cons, List.sum_cons, List.sum_cons, hg, add_right_comm]
    · rw [List.map_cons, List.map_cons, List.sum_cons, List.sum_cons, add_assoc]
      exact add_le_add_right ih _

end ModifyFirst

/-! ### The books of a session -/

/-- A turn which is completed. -/
def isCompleted (turn : TurnInfo) : Bool :=
  turn.status = .completed

/-- The turns are a list of turns, the completed ones are counted, and their usage is part of the
total. -/
structure TurnBook (session : Session) : Prop where
  turns : TurnList session.turns
  completed : session.totalTurns = session.turns.countP isCompleted
  tokens : (session.turns.map (·.tokens)).sum ≤ session.tokensTotal

/-- What holds whatever the ids are: the current turn is the last one, and the turns are a list of
turns as far as their ids are distinct. -/
structure Booked (currentTurnId : Option String) (session : Session) : Prop where
  current : currentTurnId = (session.turns.map TurnInfo.turnId).getLast?
  turns : (session.turns.map TurnInfo.turnId).Nodup → TurnList session.turns
  completed : session.totalTurns = session.turns.countP isCompleted
  tokens : (session.turns.map (·.tokens)).sum ≤ session.tokensTotal

namespace Booked

variable {session : Session} {currentTurnId : Option String}

/-- The books are in order exactly when the ids are distinct. -/
theorem turnBook_iff (h : Booked currentTurnId session) :
    TurnBook session ↔ (session.turns.map TurnInfo.turnId).Nodup :=
  ⟨fun hbook ↦ hbook.turns.ids, fun hids ↦ ⟨h.turns hids, h.completed, h.tokens⟩⟩

/-- The turns of a session whose current turn is closed are closed. -/
theorem closed_of_close (h : Booked currentTurnId session)
    (hids : (session.turns.map TurnInfo.turnId).Nodup) :
    ∀ old ∈ (match currentTurnId with
      | none => session.turns
      | some previous => modifyFirst (fun turn ↦ turn.turnId = previous) abortOpen session.turns),
      old.status ≠ .inProgress := by
  have hlist := h.turns hids
  rcases List.eq_nil_or_concat session.turns with hnil | ⟨front, last, hturns⟩
  · have hnone : currentTurnId = none := by
      rw [h.current, hnil]
      rfl
    rw [hnone, hnil]
    exact fun _ hold ↦ nomatch hold
  · rw [List.concat_eq_append] at hturns
    have hcurrent : currentTurnId = some last.turnId := by
      rw [h.current, hturns, List.map_append, List.map_singleton, List.getLast?_concat]
    have hfront : ∀ turn ∈ front, decide (turn.turnId = last.turnId) = false := by
      intro turn hturn
      rw [hturns, List.map_append, List.map_singleton, List.nodup_append] at hids
      exact decide_eq_false
        (hids.2.2 _ (List.mem_map_of_mem hturn) _ (List.mem_singleton.mpr rfl))
    rw [hcurrent]
    dsimp only
    rw [hturns, modifyFirst_append hfront]
    intro old hold
    rcases List.mem_append.mp hold with hold | hold
    · -- a turn in front of the last one is not in progress
      intro hopen
      obtain ⟨i, hi, rfl⟩ := List.getElem_of_mem hold
      have hget : session.turns[i]? = some front[i] := by
        rw [hturns, List.getElem?_append_left hi, List.getElem?_eq_getElem hi]
      have hlength := hlist.inProgress i _ hget hopen
      rw [hturns, List.length_append, List.length_singleton] at hlength
      omega
    · rw [modifyFirst, if_pos (decide_eq_true rfl), List.mem_singleton] at hold
      rw [hold]
      exact abortOpen_ne_inProgress last

theorem tokens_abortOpen (turn : TurnInfo) : (abortOpen turn).tokens = turn.tokens := by
  unfold abortOpen
  split <;> rfl

theorem isCompleted_abortOpen (turn : TurnInfo) :
    isCompleted (abortOpen turn) = isCompleted turn := by
  unfold isCompleted abortOpen
  split
  next hopen => rw [hopen]; rfl
  · rfl

/-- A prompt closes the current turn and opens its own. -/
theorem openPrompt (h : Booked currentTurnId session) (turnId prompt : String)
    (timestamp : Option DateTime) :
    Booked (some turnId) (openPrompt turnId prompt timestamp currentTurnId session) ∧
      (Parser.openPrompt turnId prompt timestamp currentTurnId session).turns.map
        TurnInfo.turnId = session.turns.map TurnInfo.turnId ++ [turnId] := by
  have hclosed := h.closed_of_close
  generalize hbefore : (match currentTurnId with
    | none => session.turns
    | some previous => modifyFirst (fun turn ↦ turn.turnId = previous) abortOpen session.turns) =
      before at hclosed
  have hkept : List.Forall₂ Kept session.turns before := by
    rw [← hbefore]
    split
    · exact kept_refl _
    · exact kept_modifyFirst kept_abortOpen _ _
  have hcount : before.countP isCompleted = session.turns.countP isCompleted := by
    rw [← hbefore]
    split
    · rfl
    · rw [countP_modifyFirst (fun turn h ↦ (isCompleted_abortOpen turn).trans h)]
      simp [isCompleted_abortOpen]
  have htokens : before.map (·.tokens) = session.turns.map (·.tokens) := by
    rw [← hbefore]
    split
    · rfl
    · exact map_modifyFirst tokens_abortOpen _
  have hids := ids_of_kept hkept
  have hturns : (Parser.openPrompt turnId prompt timestamp currentTurnId session).turns =
      before ++ [{ openTurn turnId (before.length + 1) with
        startedAt := timestamp
        userMessage := some (takeChars turnMessageLimit (Text.trimEnd prompt)) }] := by
    rw [← hbefore]
    rfl
  refine ⟨⟨?_, ?_, ?_, ?_⟩, ?_⟩
  · rw [hturns, List.map_append, List.map_singleton, List.getLast?_concat]
    rfl
  · rw [hturns, List.map_append, List.map_singleton, hids]
    intro hnodup
    rw [List.nodup_append] at hnodup
    apply ((h.turns hnodup.1).kept hkept).push
    · rw [hids]
      intro hmem
      exact hnodup.2.2 _ hmem _ (List.mem_singleton.mpr rfl) rfl
    · rfl
    · exact hclosed hnodup.1
  · show session.totalTurns = _
    rw [hturns, List.countP_append, hcount, h.completed]
    rfl
  · show _ ≤ session.tokensTotal
    rw [hturns, List.map_append, List.sum_append, htokens]
    exact h.tokens
  · rw [hturns, List.map_append, List.map_singleton, hids]
    rfl

end Booked

/-! ### Changes which keep the books -/

/-- A change which keeps the books of a session, and the ids of its turns. -/
def KeepsBooks (currentTurnId : Option String) (before after : Session) : Prop :=
  Booked currentTurnId before → Booked currentTurnId after ∧
    after.turns.map TurnInfo.turnId = before.turns.map TurnInfo.turnId

namespace KeepsBooks

variable {currentTurnId : Option String} {before between after : Session}

/-- Changes of other fields do not touch the books. -/
theorem of_eq (hturns : after.turns = before.turns)
    (hcompleted : after.totalTurns = before.totalTurns)
    (htokens : after.tokensTotal = before.tokensTotal) :
    KeepsBooks currentTurnId before after := by
  intro h
  refine ⟨⟨?_, ?_, ?_, ?_⟩, ?_⟩
  · rw [hturns]
    exact h.current
  · rw [hturns]
    exact h.turns
  · rw [hturns, hcompleted]
    exact h.completed
  · rw [hturns, htokens]
    exact h.tokens
  · rw [hturns]

theorem refl (session : Session) : KeepsBooks currentTurnId session session :=
  of_eq rfl rfl rfl

theorem trans (h₁ : KeepsBooks currentTurnId before between)
    (h₂ : KeepsBooks currentTurnId between after) : KeepsBooks currentTurnId before after := by
  intro h
  obtain ⟨hbetween, hids⟩ := h₁ h
  obtain ⟨hafter, hids'⟩ := h₂ hbetween
  exact ⟨hafter, hids'.trans hids⟩

variable (session : Session)

/-- The latest event of a session is not in the books. -/
theorem advance (instant : DateTime) :
    KeepsBooks currentTurnId session (advance instant session) := by
  unfold Parser.advance
  split
  · exact of_eq rfl rfl rfl
  · exact refl session

/-- The usage of a message is added to the total and to at most one turn. -/
theorem countUsage (delta : TokenTotals) (model serviceTier : Option String)
    (timestamp : Option DateTime) (turnId : Option String) :
    KeepsBooks currentTurnId session
      (countUsage delta model serviceTier timestamp turnId session) := by
  intro h
  have hkept : List.Forall₂ Kept session.turns
      (Parser.countUsage delta model serviceTier timestamp turnId session).turns := by
    cases turnId with
    | none => exact kept_refl _
    | some turnId =>
      exact kept_modifyFirst (f := fun turn ↦ { turn with tokens := turn.tokens + delta })
        (fun turn ↦ ⟨rfl, rfl, id⟩) _ _
  have hids := ids_of_kept hkept
  refine ⟨⟨?_, ?_, ?_, ?_⟩, hids⟩
  · rw [hids]
    exact h.current
  · rw [hids]
    exact fun hnodup ↦ (h.turns hnodup).kept hkept
  · show session.totalTurns = _
    rw [h.completed]
    cases turnId with
    | none => rfl
    | some turnId =>
      have hcount := countP_modifyFirst (p := fun turn ↦ turn.turnId = turnId) (q := isCompleted)
        (f := fun turn ↦ { turn with tokens := turn.tokens + delta }) (fun _ h ↦ h) session.turns
      simp only [isCompleted, Bool.not_and_self, Option.any_false, Bool.false_eq_true, if_false,
        Nat.add_zero] at hcount
      exact hcount.symm
  · show _ ≤ session.tokensTotal + delta
    cases turnId with
    | none => exact h.tokens.trans (le_add_of_nonneg_right zero_le)
    | some turnId =>
      exact (sum_modifyFirst_le (fun _ ↦ rfl) _).trans (add_le_add_left h.tokens delta)

/-- An answer completes a turn which is in progress, and counts it. -/
theorem answer (model serviceTier : Option String) (timestamp : Option DateTime)
    (lastAgentMessage turnId : Option String) :
    KeepsBooks currentTurnId session
      (answer model serviceTier timestamp lastAgentMessage turnId session) := by
  cases turnId with
  | none => exact refl session
  | some turnId =>
    intro h
    have hstatus : ∀ turn : TurnInfo,
        (!isCompleted turn &&
            isCompleted (answerTurn model serviceTier timestamp lastAgentMessage turn)) =
          decide (turn.status = .inProgress) := by
      intro turn
      unfold isCompleted answerTurn
      cases turn.status <;> rfl
    have hkept : ∀ turn : TurnInfo,
        Kept turn (answerTurn model serviceTier timestamp lastAgentMessage turn) := by
      intro turn
      refine ⟨rfl, rfl, fun hopen ↦ ?_⟩
      unfold answerTurn at hopen
      cases hcase : turn.status <;> simp [hcase] at hopen ⊢
    have hkept := kept_modifyFirst hkept (fun turn ↦ decide (turn.turnId = turnId)) session.turns
    have hids := ids_of_kept hkept
    refine ⟨⟨?_, ?_, ?_, ?_⟩, hids⟩
    · exact h.current.trans (congrArg List.getLast? hids.symm)
    · intro hnodup
      exact (h.turns (hids ▸ hnodup)).kept hkept
    · show session.totalTurns + _ = (modifyFirst _ _ session.turns).countP isCompleted
      rw [countP_modifyFirst, h.completed]
      · simp only [hstatus]
      · intro turn hturn
        unfold isCompleted answerTurn at *
        simp only [decide_eq_true_eq] at hturn
        simp [hturn]
    · show ((modifyFirst _ _ session.turns).map TurnInfo.tokens).sum ≤ session.tokensTotal
      rw [map_modifyFirst (f := answerTurn model serviceTier timestamp lastAgentMessage)
        (g := TurnInfo.tokens) fun _ ↦ rfl]
      exact h.tokens

/-- Derived figures do not touch the books. -/
theorem refreshSession (readers : Readers) :
    KeepsBooks currentTurnId session (refreshSession readers session) := by
  intro h
  have hkept := kept_refreshTurns readers session.toolObservations [] session.turns
  have hids := ids_of_kept hkept
  have hcount : ∀ taken, (refreshTurns readers session.toolObservations taken
      session.turns).countP isCompleted = session.turns.countP isCompleted := by
    intro taken
    induction session.turns generalizing taken with
    | nil => rfl
    | cons turn rest ih =>
      rw [refreshTurns, List.countP_cons, List.countP_cons, ih]
      rfl
  have htokens : ∀ taken, (refreshTurns readers session.toolObservations taken
      session.turns).map TurnInfo.tokens = session.turns.map TurnInfo.tokens := by
    intro taken
    induction session.turns generalizing taken with
    | nil => rfl
    | cons turn rest ih =>
      rw [refreshTurns, List.map_cons, List.map_cons, ih]
      rfl
  refine ⟨⟨?_, ?_, ?_, ?_⟩, hids⟩
  · exact h.current.trans (congrArg List.getLast? hids.symm)
  · exact fun hnodup ↦ (h.turns (hids ▸ hnodup)).kept hkept
  · exact h.completed.trans (hcount []).symm
  · show ((refreshTurns readers session.toolObservations [] session.turns).map
      TurnInfo.tokens).sum ≤ session.tokensTotal
    rw [htokens]
    exact h.tokens

end KeepsBooks

end AgentOdometer.Parser
