import AgentOdometer.Parser.Codex
import AgentOdometer.Parser.TurnList

/-!
# Turns of a Codex transcript

Turns are opened, closed, found again by id and rolled back by several handlers
(`parser.rs:391–680,892–912`). Whatever the order of the lines, they stay a list of turns.
-/

namespace AgentOdometer.Parser

/-! ### Opening and rolling back -/

/-- The turn of an id is found, or opened behind turns which are all closed. -/
theorem turnList_ensureTurnIndex {turns : List TurnInfo} (h : TurnList turns) (turnId : String) :
    TurnList (ensureTurnIndex turns turnId).1 := by
  unfold ensureTurnIndex
  split
  · exact h
  next hfind =>
    have hclosed := h.kept (kept_map kept_abortOpen turns)
    apply hclosed.push
    · rw [ids_of_kept (kept_map kept_abortOpen turns)]
      intro hmem
      obtain ⟨turn, hturn, hid⟩ := List.mem_map.mp hmem
      have hnone := List.findIdx?_eq_none_iff.mp hfind turn hturn
      exact absurd hid (of_decide_eq_false hnone)
    · rw [List.length_map]
      rfl
    · intro old hold
      obtain ⟨turn, -, rfl⟩ := List.mem_map.mp hold
      exact abortOpen_ne_inProgress turn

/-- Changing the turn of an id, there from now on, keeps the list. -/
theorem turnList_withTurn {turns : List TurnInfo} {f : TurnInfo → TurnInfo}
    (h : TurnList turns) (turnId : String) (hf : ∀ turn, Kept turn (f turn)) :
    TurnList (withTurn turnId f turns) :=
  (turnList_ensureTurnIndex h turnId).kept (kept_modify hf _ _)

/-- As above, for a record which may not name a turn. -/
theorem turnList_withTurn? {turns : List TurnInfo} {f : TurnInfo → TurnInfo}
    (h : TurnList turns) (turnId : Option String) (hf : ∀ turn, Kept turn (f turn)) :
    TurnList (match turnId with
      | none => turns
      | some turnId => withTurn turnId f turns) := by
  cases turnId with
  | none => exact h
  | some turnId => exact turnList_withTurn h turnId hf

theorem kept_rollBack (count : Nat) (turns : List TurnInfo) :
    List.Forall₂ Kept turns (rollBack count turns) := by
  induction turns generalizing count with
  | nil => cases count <;> exact kept_refl []
  | cons turn rest ih =>
    cases count with
    | zero => exact kept_refl _
    | succ count =>
      unfold rollBack
      split
      · exact .cons (Kept.refl turn) (ih _)
      · exact .cons ⟨rfl, rfl, fun h ↦ nomatch h⟩ (ih _)

theorem turnList_rollBack {turns : List TurnInfo} (h : TurnList turns) (count : Nat) :
    TurnList (rollBack count turns.reverse).reverse := by
  apply h.kept
  rw [← List.forall₂_reverse_iff, List.reverse_reverse]
  exact kept_rollBack count _

namespace SessionParser

variable (readers : Readers)

/-! ### Handlers -/

/-- The turns of the session, if there is one, are a list of turns. -/
def Listed (parser : SessionParser) : Prop :=
  ∀ session, parser.session = some session → TurnList session.turns

variable {readers} {parser : SessionParser}

/-- A handler which changes the session keeps the list when it does so for every session. -/
theorem Listed.map (h : parser.Listed) {f : Session → Session}
    (hf : ∀ session, TurnList session.turns → TurnList (f session).turns) :
    ∀ session, parser.session.map f = some session → TurnList session.turns := by
  intro session hsession
  obtain ⟨old, hold, rfl⟩ := Option.map_eq_some_iff.mp hsession
  exact hf old (h old hold)

theorem Listed.advance (h : parser.Listed) (instant : DateTime) :
    Listed { parser with session := parser.session.map (advance instant) } := by
  apply h.map
  intro session hsession
  unfold Parser.advance
  split
  · exact hsession
  · exact hsession

theorem Listed.handleResponseItem (h : parser.Listed) (payload : Json) (timestamp : DateTime) :
    (handleResponseItem readers payload timestamp parser).Listed := by
  unfold SessionParser.handleResponseItem
  dsimp only
  split
  · split
    · exact h
    · exact h.map fun _ hsession ↦ hsession
  · split
    · exact h.map fun _ hsession ↦ hsession
    · exact h

theorem Listed.handleSessionMeta (h : parser.Listed) {payload : Json} {lastEventAt : DateTime}
    {next : SessionParser}
    (hnext : handleSessionMeta readers payload lastEventAt parser = some next) :
    next.Listed := by
  unfold SessionParser.handleSessionMeta at hnext
  split at hnext
  next session hsession =>
    cases hnext
    intro refreshed hrefreshed
    cases hrefreshed
    unfold refreshMeta Parser.advance
    split
    · exact h session hsession
    · exact h session hsession
  · cases hstart : timestampField readers payload "timestamp" with
    | none =>
      rw [hstart] at hnext
      cases hnext
    | some startedAt =>
      rw [hstart] at hnext
      cases hnext
      intro created hcreated
      cases hcreated
      exact TurnList.nil

theorem Listed.handleTurnContext (h : parser.Listed) (payload : Json) :
    (handleTurnContext payload parser).Listed :=
  h.map fun _ hsession ↦ turnList_withTurn? hsession _ fun _ ↦ ⟨rfl, rfl, id⟩

theorem Listed.handleThreadSettings (h : parser.Listed) (payload : Json) :
    (handleThreadSettings payload parser).Listed := by
  unfold SessionParser.handleThreadSettings
  split
  · exact h
  · exact h.map fun _ hsession ↦ turnList_withTurn? hsession _ fun _ ↦ ⟨rfl, rfl, id⟩

theorem Listed.taskComplete (h : parser.Listed) (payload : Json) (eventTs : DateTime) :
    (taskComplete readers payload eventTs parser).Listed :=
  h.map fun _ hsession ↦ turnList_withTurn? hsession _ fun _ ↦ ⟨rfl, rfl, fun h ↦ nomatch h⟩

theorem Listed.turnAborted (h : parser.Listed) (payload : Json) (eventTs : DateTime) :
    (turnAborted readers payload eventTs parser).Listed :=
  h.map fun _ hsession ↦ turnList_withTurn? hsession _ fun _ ↦ ⟨rfl, rfl, fun h ↦ nomatch h⟩

theorem turns_applyRateLimits (rateLimits : Json) (eventTs : DateTime) (turnId : Option String)
    (session : Session) :
    (applyRateLimits readers rateLimits eventTs turnId session).turns = session.turns := by
  have haccount : (applyAccount rateLimits session).turns = session.turns := by
    unfold applyAccount
    dsimp only
    split <;> rfl
  unfold applyRateLimits
  dsimp only
  split
  · exact haccount
  · exact haccount

theorem Listed.handleTokenCount (h : parser.Listed) (payload : Json) (eventTs : DateTime) :
    (handleTokenCount readers payload eventTs parser).Listed := by
  apply h.map
  intro session hsession
  have husage : TurnList (applyUsage payload eventTs parser.currentModel
      parser.currentServiceTier parser.currentTurnId session).turns := by
    unfold applyUsage
    dsimp only
    split
    · exact hsession
    · apply hsession.kept
      apply kept_modifyFirst
      exact fun _ ↦ ⟨rfl, rfl, id⟩
  dsimp only
  split
  · exact husage
  · rw [turns_applyRateLimits]
    exact husage

theorem Listed.handleEventMsg (h : parser.Listed) (payload : Json) (eventTs : DateTime) :
    (handleEventMsg readers payload eventTs parser).Listed := by
  unfold SessionParser.handleEventMsg
  split
  · exact h.map fun _ hsession ↦ turnList_withTurn? hsession _ fun _ ↦ ⟨rfl, rfl, id⟩
  · exact h.map fun _ hsession ↦ turnList_withTurn? hsession _ fun _ ↦ ⟨rfl, rfl, id⟩
  · exact h.handleTokenCount payload eventTs
  · exact h.handleThreadSettings payload
  · exact h.taskComplete payload eventTs
  · exact h.turnAborted payload eventTs
  · exact h.map fun _ hsession ↦ turnList_rollBack hsession _
  · exact h.map fun _ hsession ↦ hsession
  · exact h

/-! ### Runs -/

/-- A record keeps the list of turns. -/
theorem Listed.applyRecord (h : parser.Listed) {root : Json} {now : DateTime}
    {next : SessionParser} (hnext : applyRecord readers root now parser = some next) :
    next.Listed := by
  unfold SessionParser.applyRecord SessionParser.handleRecord at hnext
  dsimp only at hnext
  have hadvanced := h.advance
    ((readers.parseInstant ((root.str "timestamp").getD "")).getD now)
  split at hnext
  · cases hnext
    exact hadvanced.handleResponseItem _ _
  · exact hadvanced.handleSessionMeta hnext
  · cases hnext
    exact hadvanced.handleTurnContext _
  · cases hnext
    exact hadvanced.handleEventMsg _ _
  · cases hnext
    exact hadvanced

/-- A step keeps the list of turns. -/
theorem Listed.step (h : parser.Listed) (step : Step) : (parser.step readers step).Listed := by
  cases step with
  | refresh =>
    apply h.map
    intro session hsession
    exact hsession.kept (kept_refreshTurns readers _ _ _)
  | line line =>
    show ((applyLineWithoutRefresh readers line parser).getD parser).Listed
    cases hline : applyLineWithoutRefresh readers line parser with
    | none => exact h
    | some next =>
      show next.Listed
      unfold applyLineWithoutRefresh at hline
      split at hline
      · cases hline
        exact h.advance _
      · obtain ⟨root, -, hnext⟩ := Option.bind_eq_some_iff.mp hline
        exact h.applyRecord hnext

theorem listed_new (filePath : String) (archived : Bool) : (new filePath archived).Listed :=
  fun _ h ↦ nomatch h

/-- After every sequence of lines, the turns of the session have distinct ids, their positions as
indices, and only the last one can be in progress. -/
theorem listed_run (readers : Readers) (filePath : String) (archived : Bool)
    (steps : List Step) : (run readers steps (new filePath archived)).Listed := by
  have hrun : ∀ parser : SessionParser, parser.Listed → (run readers steps parser).Listed := by
    induction steps with
    | nil => exact fun _ h ↦ h
    | cons step rest ih =>
      intro parser h
      exact ih _ (h.step step)
  exact hrun _ (listed_new filePath archived)

end SessionParser

end AgentOdometer.Parser
