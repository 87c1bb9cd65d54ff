import AgentOdometer.Parser.Codex
import AgentOdometer.Parser.PromptTurns

/-!
# The span of a session

The instants which the parsers write into a session. A record moves `last_event_at` before it is
handled (`parser.rs:118–122,136–140`, `claude_parser.rs:152–158`, `gemini_parser.rs:155–159`), so
what it writes is never later. Nothing of this kind is done about `started_at`.
-/

namespace AgentOdometer.Parser

open Std (ExtTreeSet)

/-- The instants of the token history and of the tool calls. -/
def eventTimes (session : Session) : List DateTime :=
  session.tokensHistory.map TokenHistoryPoint.timestamp ++
    session.toolObservations.map ToolObservation.timestamp

/-- The instants at which a turn started and was completed. -/
def turnTimes (turn : TurnInfo) : List DateTime :=
  turn.startedAt.toList ++ turn.completedAt.toList

/-- The instants of a session, with those of its turns. -/
def sessionTimes (session : Session) : List DateTime :=
  eventTimes session ++ session.turns.flatMap turnTimes

variable {times : Session → List DateTime} {i : Option DateTime}

/-- What a record of an instant does to a session. -/
structure Writes (times : Session → List DateTime) (i : Option DateTime)
    (before after : Session) : Prop where
  started : after.startedAt = before.startedAt
  last : before.lastEventAt ≤ after.lastEventAt
  latest : after.lastEventAt = before.lastEventAt ∨ i = some after.lastEventAt
  times : ∀ t ∈ times after, t ∈ times before ∨ i = some t

namespace Writes

variable {before between after : Session}

theorem of_times (hstarted : after.startedAt = before.startedAt)
    (hlast : after.lastEventAt = before.lastEventAt)
    (htimes : ∀ t ∈ times after, t ∈ times before ∨ i = some t) : Writes times i before after :=
  ⟨hstarted, hlast.ge, .inl hlast, htimes⟩

theorem refl (session : Session) : Writes times i session session :=
  of_times rfl rfl fun _ ht ↦ .inl ht

theorem trans (h₁ : Writes times i before between) (h₂ : Writes times i between after) :
    Writes times i before after where
  started := h₂.started.trans h₁.started
  last := h₁.last.trans h₂.last
  latest := by
    rcases h₂.latest with hkept | hmoved
    · rw [hkept]
      exact h₁.latest
    · exact .inr hmoved
  times t ht := by
    rcases h₂.times t ht with hold | hnew
    · exact h₁.times t hold
    · exact .inr hnew

theorem advance {t : DateTime} (session : Session)
    (htimes : times (Parser.advance t session) = times session) :
    Writes times (some t) session (Parser.advance t session) := by
  have hlast : (Parser.advance t session).lastEventAt = max session.lastEventAt t := by
    unfold Parser.advance
    split
    next hlater => exact (max_eq_right hlater.le).symm
    next hlater => exact (max_eq_left (not_lt.mp hlater)).symm
  refine ⟨?_, ?_, ?_, fun t ht ↦ .inl (htimes ▸ ht)⟩
  · unfold Parser.advance
    split <;> rfl
  · rw [hlast]
    exact le_max_left _ _
  · rw [hlast]
    rcases max_choice session.lastEventAt t with hkept | hmoved
    · exact .inl hkept
    · exact .inr (congrArg some hmoved.symm)

end Writes

/-- A session which a record has just made. -/
def Fresh (times : Session → List DateTime) (i : Option DateTime) (session : Session) : Prop :=
  times session = [] ∧
    (i = none ∧ session.lastEventAt = session.startedAt ∨ i = some session.lastEventAt)

/-- What a record does to the session of a parser, or to the one which it makes. -/
def Follows (times : Session → List DateTime) (i : Option DateTime)
    (before after : Option Session) : Prop :=
  ∀ next ∈ after, ∃ session, (before = some session ∨ Fresh times i session) ∧
    Writes times i session next

/-- The session is not behind the instant of a record. -/
def Reached (i : Option DateTime) (session : Option Session) : Prop :=
  ∀ known ∈ session, ∀ t ∈ i, t ≤ known.lastEventAt

namespace Follows

variable {before between after : Option Session}

theorem refl (session : Option Session) : Follows times i session session :=
  fun next hnext ↦ ⟨next, .inl hnext, .refl next⟩

theorem of_fresh {session : Session} (h : Fresh times i session) :
    Follows times i before (some session) := by
  rintro next ⟨⟩
  exact ⟨session, .inr h, .refl session⟩

theorem map {f : Session → Session} (hf : ∀ session, Writes times i session (f session))
    (session : Option Session) : Follows times i session (session.map f) := by
  rintro next hnext
  obtain ⟨known, hknown, rfl⟩ := Option.map_eq_some_iff.mp hnext
  exact ⟨known, .inl hknown, hf known⟩

theorem trans (h₁ : Follows times i before between) (h₂ : Follows times i between after) :
    Follows times i before after := by
  intro next hnext
  obtain ⟨middle, hmiddle | hfresh, hwrites⟩ := h₂ next hnext
  · obtain ⟨session, hsession, hwrites'⟩ := h₁ middle hmiddle
    exact ⟨session, hsession, hwrites'.trans hwrites⟩
  · exact ⟨middle, .inr hfresh, hwrites⟩

theorem reached (h : Follows times i before after) (hbefore : Reached i before) :
    Reached i after := by
  intro next hnext t ht
  obtain ⟨session, hsession | ⟨-, ⟨hnone, -⟩ | hlast⟩, hwrites⟩ := h next hnext
  · exact (hbefore session hsession t ht).trans hwrites.last
  · rw [hnone] at ht
    cases ht
  · rw [hlast] at ht
    cases ht
    exact hwrites.last

end Follows

/-- A record moves the last event of a session up to itself. -/
theorem reached_advance (t : DateTime) (session : Option Session) :
    Reached (some t) (session.map (advance t)) := by
  rintro next hnext _ ⟨⟩
  obtain ⟨known, -, rfl⟩ := Option.map_eq_some_iff.mp hnext
  unfold advance
  split
  · exact le_rfl
  next hlater => exact not_lt.mp hlater

/-! ### Runs -/

/-- The times of a session are instants of lines and not behind its last event, which is the
instant of a line too unless it is the start. -/
structure Spanned (times : Session → List DateTime) (instants : List DateTime)
    (session : Session) : Prop where
  upper : ∀ t ∈ times session, t ≤ session.lastEventAt
  lines : ∀ t ∈ times session, t ∈ instants
  latest : session.lastEventAt = session.startedAt ∨ session.lastEventAt ∈ instants

theorem Spanned.mono {instants instants' : List DateTime} {session : Session}
    (h : Spanned times instants session) (hsub : instants ⊆ instants') :
    Spanned times instants' session :=
  ⟨h.upper, fun t ht ↦ hsub (h.lines t ht), h.latest.imp_right fun hmem ↦ hsub hmem⟩

theorem Spanned.writes {instants : List DateTime} {before after : Session}
    (h : Spanned times instants before) (hwrites : Writes times i before after)
    (hreached : ∀ t ∈ i, t ≤ after.lastEventAt) :
    Spanned times (instants ++ i.toList) after where
  upper t ht := by
    rcases hwrites.times t ht with hold | hnew
    · exact (h.upper t hold).trans hwrites.last
    · exact hreached t hnew
  lines t ht := by
    rcases hwrites.times t ht with hold | rfl
    · exact List.mem_append_left _ (h.lines t hold)
    · exact List.mem_append_right _ (List.mem_singleton.mpr rfl)
  latest := by
    rcases hwrites.latest with hkept | hmoved
    · rw [hkept, hwrites.started]
      exact h.latest.imp_right fun hmem ↦ List.mem_append_left _ hmem
    · refine .inr (List.mem_append_right _ ?_)
      rw [hmoved]
      exact List.mem_singleton.mpr rfl

/-- A step keeps the times within the span. -/
theorem spanned_follows {instants : List DateTime} {before after : Option Session}
    (h : ∀ session ∈ before, Spanned times instants session)
    (hfollows : Follows times i before after) (hreached : Reached i after) :
    ∀ session ∈ after, Spanned times (instants ++ i.toList) session := by
  intro next hnext
  obtain ⟨session, hsession | ⟨hempty, hlast⟩, hwrites⟩ := hfollows next hnext
  · exact (h session hsession).writes hwrites (hreached next hnext)
  · have hfresh : Spanned times i.toList session := by
      refine ⟨?_, ?_, ?_⟩
      · rw [hempty]
        exact List.forall_mem_nil _
      · rw [hempty]
        exact List.forall_mem_nil _
      · rcases hlast with ⟨-, hstart⟩ | hline
        · exact .inl hstart
        · rw [hline]
          exact .inr (List.mem_singleton.mpr rfl)
    refine (hfresh.writes hwrites (hreached next hnext)).mono ?_
    intro t ht
    rw [List.mem_append, or_self] at ht
    exact List.mem_append_right _ ht

/-- Steps which follow each other keep the times within the span. -/
theorem spanned_foldl {σ : Type} {step : σ → Step → σ} {session : σ → Option Session}
    {instantOf : Step → Option DateTime}
    (hstep : ∀ parser line, ∃ i, (i = none ∨ i = instantOf line) ∧
      Follows times i (session parser) (session (step parser line)) ∧
        Reached i (session (step parser line)))
    (steps : List Step) {parser : σ} {instants : List DateTime}
    (h : ∀ known ∈ session parser, Spanned times instants known) :
    ∀ known ∈ session (steps.foldl step parser),
      Spanned times (instants ++ steps.filterMap instantOf) known := by
  induction steps generalizing parser instants with
  | nil =>
    rw [List.filterMap_nil, List.append_nil]
    exact h
  | cons line rest ih =>
    obtain ⟨i, hi, hfollows, hreached⟩ := hstep parser line
    have hnext := ih (spanned_follows h hfollows hreached)
    intro known hknown
    refine (hnext known hknown).mono ?_
    rcases hi with rfl | rfl
    · rw [Option.toList_none, List.append_nil, List.filterMap_cons]
      split
      · exact fun t ht ↦ ht
      · intro t ht
        rw [List.mem_append] at ht ⊢
        exact ht.imp_right (List.mem_cons_of_mem _)
    · rw [List.append_assoc, List.filterMap_cons]
      cases instantOf line with
      | none => exact fun t ht ↦ ht
      | some t => exact fun t ht ↦ ht

/-! ### Tool calls -/

theorem mem_times_observeCall {readers : Readers} {observations : List ToolObservation}
    {input : ToolCallInput} {t : DateTime}
    (h : t ∈ (observeCall readers observations input).map ToolObservation.timestamp) :
    t ∈ observations.map ToolObservation.timestamp ∨ t = input.timestamp := by
  unfold observeCall at h
  split at h
  · exact .inl h
  · rw [List.map_append, List.mem_append] at h
    exact h.imp_right List.mem_singleton.mp

theorem times_observeResult (observations : List ToolObservation) (callId : String)
    (outcome : ToolOutcome) (durationMs : Option Nat) (completedAt : Option DateTime)
    (outputBytes : Nat) :
    (observeResult observations callId outcome durationMs completedAt outputBytes).map
        ToolObservation.timestamp = observations.map ToolObservation.timestamp := by
  unfold observeResult
  rw [List.map_reverse, map_modifyFirst, List.map_reverse, List.reverse_reverse]
  exact fun _ ↦ rfl

theorem writes_observeCall (readers : Readers) (session : Session) (input : ToolCallInput) :
    Writes eventTimes (some input.timestamp) session { session with
      toolObservations := observeCall readers session.toolObservations input } := by
  refine .of_times rfl rfl fun t ht ↦ ?_
  rw [eventTimes, List.mem_append] at ht ⊢
  rcases ht with htokens | htools
  · exact .inl (.inl htokens)
  · rcases mem_times_observeCall htools with hold | rfl
    · exact .inl (.inr hold)
    · exact .inr rfl

/-- What is written to the turns is of the instant of the record too. -/
theorem Writes.withTurns {before after : Session} (h : Writes eventTimes i before after)
    (hturns : ∀ t ∈ after.turns.flatMap turnTimes,
      t ∈ before.turns.flatMap turnTimes ∨ i = some t) : Writes sessionTimes i before after where
  started := h.started
  last := h.last
  latest := h.latest
  times t ht := by
    rw [sessionTimes, List.mem_append] at ht ⊢
    rcases ht with hevent | hturn
    · exact (h.times t hevent).imp_left .inl
    · exact (hturns t hturn).imp_left .inr

/-! ### Codex -/

namespace SessionParser

variable (readers : Readers)

/-- The instant of a line: its own, or that of the clock. -/
def instantOf : Step → Option DateTime
  | .refresh => none
  | .line line =>
      match fastSkipTimestamp line.text with
      | some ts => some ((readers.parseInstant ts).getD line.now)
      | none => (readers.fromStr line.text).map fun root ↦
          (readers.parseInstant ((root.str "timestamp").getD "")).getD line.now

/-- A handler which writes no event. -/
theorem follows_map {f : Session → Session} (session : Option Session)
    (hf : ∀ s, eventTimes (f s) = eventTimes s ∧ (f s).startedAt = s.startedAt ∧
      (f s).lastEventAt = s.lastEventAt) : Follows eventTimes i session (session.map f) :=
  .map (fun s ↦ .of_times (hf s).2.1 (hf s).2.2 fun _ ht ↦ .inl ((hf s).1 ▸ ht)) session

theorem follows_handleResponseItem (payload : Json) (t : DateTime) (parser : SessionParser) :
    Follows eventTimes (some t) parser.session
      (handleResponseItem readers payload t parser).session := by
  unfold handleResponseItem
  simp only
  split_ifs
  · exact .refl _
  · exact .map (fun session ↦ writes_observeCall readers session _) _
  · exact .map (fun session ↦ writes_observeCall readers session _) _
  · refine follows_map _ ?_
    exact fun session ↦ ⟨congrArg (_ ++ ·) (times_observeResult _ _ _ _ _ _), rfl, rfl⟩
  · refine follows_map _ ?_
    exact fun session ↦ ⟨congrArg (_ ++ ·) (times_observeResult _ _ _ _ _ _), rfl, rfl⟩
  · exact .refl _

theorem times_advance (t : DateTime) (session : Session) :
    eventTimes (advance t session) = eventTimes session := by
  unfold advance
  split <;> rfl

theorem follows_handleSessionMeta {payload : Json} {t : DateTime} {parser next : SessionParser}
    (h : handleSessionMeta readers payload t parser = some next) :
    Follows eventTimes (some t) parser.session next.session := by
  unfold handleSessionMeta at h
  cases hsession : parser.session with
  | some session =>
    rw [hsession] at h
    cases h
    rintro refreshed ⟨⟩
    refine ⟨session, .inl rfl, .trans ?_ (.advance _ (times_advance t _))⟩
    exact .of_times rfl rfl fun _ ht ↦ .inl ht
  | none =>
    rw [hsession] at h
    obtain ⟨startedAt, -, hnext⟩ := Option.bind_eq_some_iff.mp h
    cases hnext
    exact .of_fresh ⟨rfl, .inr rfl⟩

theorem follows_handleTokenCount (payload : Json) (t : DateTime) (parser : SessionParser) :
    Follows eventTimes (some t) parser.session
      (handleTokenCount readers payload t parser).session := by
  have husage : ∀ session, Writes eventTimes (some t) session
      (applyUsage payload t parser.currentModel parser.currentServiceTier parser.currentTurnId
        session) := by
    intro session
    refine .of_times rfl rfl fun t' ht ↦ ?_
    unfold eventTimes applyUsage at ht
    rw [List.mem_append] at ht
    rcases ht with htokens | htools
    · cases htotal : totalUsage payload with
      | none =>
        rw [htotal] at htokens
        exact .inl (List.mem_append_left _ htokens)
      | some total =>
        rw [htotal] at htokens
        rw [List.map_append, List.mem_append] at htokens
        rcases htokens with hold | hnew
        · exact .inl (List.mem_append_left _ hold)
        · exact .inr (congrArg some (List.mem_singleton.mp hnew).symm)
    · exact .inl (List.mem_append_right _ htools)
  have hlimits : ∀ rateLimits session, Writes eventTimes (some t) session
      (applyRateLimits readers rateLimits t parser.currentTurnId session) := by
    intro rateLimits session
    have haccount : Writes eventTimes (some t) session (applyAccount rateLimits session) := by
      unfold applyAccount
      simp only
      split <;> exact .of_times rfl rfl fun _ ht ↦ .inl ht
    refine haccount.trans ?_
    unfold applyRateLimits
    simp only
    split <;> exact .of_times rfl rfl fun _ ht ↦ .inl ht
  refine .map (fun session ↦ ?_) _
  simp only
  split
  · exact husage session
  · exact (husage session).trans (hlimits _ _)

theorem follows_handleEventMsg (payload : Json) (t : DateTime) (parser : SessionParser) :
    Follows eventTimes (some t) parser.session
      (handleEventMsg readers payload t parser).session := by
  unfold handleEventMsg
  split
  · refine follows_map _ ?_
    exact fun _ ↦ ⟨rfl, rfl, rfl⟩
  · refine follows_map _ ?_
    exact fun _ ↦ ⟨rfl, rfl, rfl⟩
  · exact follows_handleTokenCount readers payload t parser
  · unfold handleThreadSettings
    split
    · exact .refl _
    · refine follows_map _ ?_
      exact fun _ ↦ ⟨rfl, rfl, rfl⟩
  · refine follows_map _ ?_
    exact fun _ ↦ ⟨rfl, rfl, rfl⟩
  · refine follows_map _ ?_
    exact fun _ ↦ ⟨rfl, rfl, rfl⟩
  · refine follows_map _ ?_
    exact fun _ ↦ ⟨rfl, rfl, rfl⟩
  · refine follows_map _ ?_
    exact fun session ↦ ⟨congrArg (_ ++ ·) (times_observeResult _ _ _ _ _ _), rfl, rfl⟩
  · exact .refl _

/-- A record writes its own instant, up to which it has moved the last event. -/
theorem follows_applyRecord {root : Json} {now : DateTime} {parser next : SessionParser}
    (h : applyRecord readers root now parser = some next) :
    Follows eventTimes (some ((readers.parseInstant ((root.str "timestamp").getD "")).getD now))
        parser.session next.session ∧
      Reached (some ((readers.parseInstant ((root.str "timestamp").getD "")).getD now))
        next.session := by
  unfold applyRecord handleRecord at h
  simp only at h
  have hadvance := Follows.map (fun session ↦ Writes.advance session (times_advance
    ((readers.parseInstant ((root.str "timestamp").getD "")).getD now) session)) parser.session
  have hreached := reached_advance
    ((readers.parseInstant ((root.str "timestamp").getD "")).getD now) parser.session
  have hhandled : Follows eventTimes
      (some ((readers.parseInstant ((root.str "timestamp").getD "")).getD now))
      (parser.session.map (advance
        ((readers.parseInstant ((root.str "timestamp").getD "")).getD now))) next.session := by
    split at h
    · cases h
      exact follows_handleResponseItem readers _ _ _
    · exact follows_handleSessionMeta readers h
    · cases h
      refine follows_map _ ?_
      exact fun _ ↦ ⟨rfl, rfl, rfl⟩
    · cases h
      exact follows_handleEventMsg readers _ _ _
    · cases h
      exact .refl _
  exact ⟨hadvance.trans hhandled, hhandled.reached hreached⟩

theorem follows_step (parser : SessionParser) (line : Step) :
    ∃ i, (i = none ∨ i = instantOf readers line) ∧
      Follows eventTimes i parser.session (step readers parser line).session ∧
        Reached i (step readers parser line).session := by
  have hnone : ∀ session, Reached none session := by
    rintro session known - t ⟨⟩
  cases line with
  | refresh =>
    refine ⟨none, .inl rfl, follows_map _ ?_, hnone _⟩
    exact fun _ ↦ ⟨rfl, rfl, rfl⟩
  | line line =>
    have hstep : step readers parser (.line line) =
        (applyLineWithoutRefresh readers line parser).getD parser := rfl
    rw [hstep]
    cases hline : applyLineWithoutRefresh readers line parser with
    | none => exact ⟨none, .inl rfl, .refl _, hnone _⟩
    | some next =>
      refine ⟨_, .inr rfl, ?_⟩
      unfold applyLineWithoutRefresh at hline
      rw [Option.getD_some]
      cases hfast : fastSkipTimestamp line.text with
      | some ts =>
        rw [hfast] at hline
        cases hline
        simp only [instantOf, hfast]
        exact ⟨.map (fun session ↦ .advance session (times_advance _ session)) _,
          reached_advance _ _⟩
      | none =>
        rw [hfast] at hline
        obtain ⟨root, hroot, hnext⟩ := Option.bind_eq_some_iff.mp hline
        simp only [instantOf, hfast, hroot]
        exact follows_applyRecord readers hnext

end SessionParser

/-! ### Claude Code and Gemini CLI -/

theorem sessionTimes_advance (t : DateTime) (session : Session) :
    sessionTimes (advance t session) = sessionTimes session := by
  unfold advance
  split <;> rfl

theorem mem_turnTimes_modifyFirst {p : TurnInfo → Bool} {f : TurnInfo → TurnInfo}
    (hf : ∀ turn, ∀ t ∈ turnTimes (f turn), t ∈ turnTimes turn ∨ i = some t)
    (turns : List TurnInfo) :
    ∀ t ∈ (modifyFirst p f turns).flatMap turnTimes,
      t ∈ turns.flatMap turnTimes ∨ i = some t := by
  induction turns with
  | nil => exact fun _ ht ↦ .inl ht
  | cons turn rest ih =>
    intro t ht
    rw [List.flatMap_cons, List.mem_append]
    unfold modifyFirst at ht
    split at ht
    · rw [List.flatMap_cons, List.mem_append] at ht
      rcases ht with hturn | hrest
      · exact (hf turn t hturn).imp_left .inl
      · exact .inl (.inr hrest)
    · rw [List.flatMap_cons, List.mem_append] at ht
      rcases ht with hturn | hrest
      · exact .inl (.inl hturn)
      · exact (ih t hrest).imp_left .inr

theorem turnTimes_abortOpen (turn : TurnInfo) : turnTimes (abortOpen turn) = turnTimes turn := by
  unfold abortOpen
  split <;> rfl

theorem writes_openPrompt (turnId prompt : String) (currentTurnId : Option String)
    (session : Session) :
    Writes sessionTimes i session (openPrompt turnId prompt i currentTurnId session) := by
  refine .withTurns (.of_times rfl rfl fun _ ht ↦ .inl ht) fun t ht ↦ ?_
  unfold openPrompt at ht
  rw [List.flatMap_append, List.mem_append] at ht
  rcases ht with hold | hnew
  · cases currentTurnId with
    | none => exact .inl hold
    | some previous =>
      exact mem_turnTimes_modifyFirst
        (fun turn t ht ↦ .inl (turnTimes_abortOpen turn ▸ ht)) _ t hold
  · rw [List.flatMap_singleton, turnTimes, List.mem_append] at hnew
    rcases hnew with hstarted | hcompleted
    · exact .inr (Option.mem_toList.mp hstarted)
    · exact absurd hcompleted List.not_mem_nil

theorem writes_countUsage (delta : TokenTotals) (model serviceTier currentTurnId : Option String)
    (session : Session) :
    Writes sessionTimes i session
      (countUsage delta model serviceTier i currentTurnId session) := by
  refine .withTurns (.of_times rfl rfl fun t ht ↦ ?_) fun t ht ↦ ?_
  · unfold eventTimes countUsage at ht
    rw [List.mem_append] at ht
    rcases ht with htokens | htools
    · cases i with
      | none => exact .inl (List.mem_append_left _ htokens)
      | some instant =>
        rw [List.map_append, List.mem_append] at htokens
        rcases htokens with hold | hnew
        · exact .inl (List.mem_append_left _ hold)
        · exact .inr (congrArg some (List.mem_singleton.mp hnew).symm)
    · exact .inl (List.mem_append_right _ htools)
  · unfold countUsage at ht
    cases currentTurnId with
    | none => exact .inl ht
    | some turnId =>
      exact mem_turnTimes_modifyFirst (f := fun turn ↦ { turn with tokens := turn.tokens + delta })
        (fun _ _ ht ↦ .inl ht) session.turns t ht

theorem writes_answer (model serviceTier lastAgentMessage currentTurnId : Option String)
    (session : Session) :
    Writes sessionTimes i session
      (answer model serviceTier i lastAgentMessage currentTurnId session) := by
  cases currentTurnId with
  | none => exact .refl session
  | some turnId =>
    refine .withTurns (.of_times rfl rfl fun _ ht ↦ .inl ht) fun t ht ↦ ?_
    refine mem_turnTimes_modifyFirst (f := answerTurn model serviceTier i lastAgentMessage)
      (fun turn t ht ↦ ?_) session.turns t ht
    unfold turnTimes answerTurn at ht
    rw [List.mem_append] at ht
    rcases ht with hstarted | hcompleted
    · exact .inl (List.mem_append_left _ hstarted)
    · cases i with
      | none => exact .inl (List.mem_append_right _ hcompleted)
      | some instant => exact .inr (Option.mem_toList.mp hcompleted)

theorem times_refreshTurns (readers : Readers) (observations : List ToolObservation)
    (taken : List String) (turns : List TurnInfo) :
    (refreshTurns readers observations taken turns).flatMap turnTimes =
      turns.flatMap turnTimes := by
  induction turns generalizing taken with
  | nil => rfl
  | cons turn rest ih =>
    rw [refreshTurns, List.flatMap_cons, ih, List.flatMap_cons]
    rfl

theorem writes_refreshSession (readers : Readers) (session : Session) :
    Writes sessionTimes i session (refreshSession readers session) := by
  refine .withTurns (.of_times rfl rfl fun _ ht ↦ .inl ht) fun t ht ↦ .inl ?_
  exact times_refreshTurns readers _ _ _ ▸ ht

/-- A change which leaves the events and the turns. -/
theorem writes_of_eq {before after : Session} (htokens : after.tokensHistory = before.tokensHistory)
    (htools : after.toolObservations.map ToolObservation.timestamp =
      before.toolObservations.map ToolObservation.timestamp)
    (hturns : after.turns = before.turns) (hstarted : after.startedAt = before.startedAt)
    (hlast : after.lastEventAt = before.lastEventAt) : Writes sessionTimes i before after := by
  refine .of_times hstarted hlast fun t ht ↦ .inl ?_
  rw [sessionTimes, eventTimes, htokens, htools, hturns] at ht
  exact ht

namespace ClaudeSessionParser

variable (readers : Readers)

/-- The instant of a line, when it has one. -/
def instantOf : Step → Option DateTime
  | .refresh => none
  | .line line => (readers.fromStr line.text).bind (recordTimestamp readers)

theorem follows_ensureSession (root : Json) (parser : ClaudeSessionParser) :
    Follows sessionTimes i parser.session (ensureSession root i parser).session := by
  unfold ensureSession
  split
  next session hsession =>
    rintro next ⟨⟩
    exact ⟨session, .inl hsession, writes_of_eq rfl rfl rfl rfl rfl⟩
  · exact .refl _
  next startedAt hsession =>
    simp only
    split
    · exact .refl _
    · refine .of_fresh ?_
      unfold refreshMetadata createSession
      simp only
      split <;> exact ⟨rfl, .inr rfl⟩

theorem reached_prepare (root : Json) (parser : ClaudeSessionParser) :
    Follows sessionTimes (recordTimestamp readers root) parser.session
        (prepare readers root parser).session ∧
      Reached (recordTimestamp readers root) (prepare readers root parser).session := by
  unfold prepare
  have hensure := follows_ensureSession (i := recordTimestamp readers root) root parser
  revert hensure
  cases recordTimestamp readers root with
  | none =>
    intro hensure
    refine ⟨hensure, ?_⟩
    rintro session - t ⟨⟩
  | some instant =>
    intro hensure
    exact ⟨hensure.trans (.map (fun session ↦ .advance session (sessionTimes_advance _ session)) _),
      reached_advance _ _⟩

theorem follows_handleUser (root : Json) (parser : ClaudeSessionParser) :
    Follows sessionTimes i parser.session (handleUser root i parser).session := by
  unfold handleUser
  split
  next prompt session _ hsession =>
    simp only
    split
    · exact .refl _
    · rintro next ⟨⟩
      exact ⟨session, .inl hsession, writes_openPrompt _ _ _ _⟩
  · exact .refl _

theorem times_observeToolResult (root : Json) (timestamp : Option DateTime)
    (observations : List ToolObservation) (block : Json) :
    (observeToolResult readers root timestamp observations block).map ToolObservation.timestamp =
      observations.map ToolObservation.timestamp := by
  unfold observeToolResult
  split
  · exact times_observeResult _ _ _ _ _ _
  · rfl

theorem follows_handleToolResults (root : Json) (parser : ClaudeSessionParser) :
    Follows sessionTimes i parser.session (handleToolResults readers root i parser).session := by
  have htimes : ∀ (blocks : List Json) (observations : List ToolObservation),
      (blocks.foldl (observeToolResult readers root i) observations).map
        ToolObservation.timestamp = observations.map ToolObservation.timestamp := by
    intro blocks
    induction blocks with
    | nil => exact fun _ ↦ rfl
    | cons block rest ih =>
      exact fun observations ↦ (ih _).trans (times_observeToolResult readers root i _ block)
  unfold handleToolResults
  split
  · exact .refl _
  · refine .map ?_ _
    exact fun session ↦ writes_of_eq rfl (htimes _ _) rfl rfl rfl

theorem writes_observeCalls (model turnId : Option String) (t : DateTime)
    (calls : List (String × String × Json)) (session : Session) :
    Writes eventTimes (some t) session { session with
      toolObservations :=
        observeCalls readers model turnId t calls session.toolObservations } := by
  induction calls generalizing session with
  | nil => exact .refl session
  | cons call rest ih =>
    refine .trans (writes_observeCall readers session
      ⟨call.1, turnId, .claudeCode, model, t, call.2.1, call.2.2⟩) ?_
    exact ih _

theorem writes_called (model serviceTier called turnId : Option String)
    (calls : List (String × String × Json)) (session : Session) :
    Writes sessionTimes i session { session with
      model, serviceTier
      toolObservations := match i with
        | none => session.toolObservations
        | some timestamp =>
            observeCalls readers called turnId timestamp calls session.toolObservations } := by
  cases i with
  | none => exact writes_of_eq rfl rfl rfl rfl rfl
  | some t =>
    have hwrites := writes_observeCalls readers called turnId t calls session
    exact .withTurns ⟨hwrites.started, hwrites.last, hwrites.latest, hwrites.times⟩
      fun _ ht ↦ .inl ht

theorem writes_applyMessage (message : Json) (firstOccurrence : Bool)
    (lastAgentMessage currentTurnId : Option String) (calls : List (String × String × Json))
    (session : Session) :
    Writes sessionTimes i session (applyMessage readers message i firstOccurrence lastAgentMessage
      currentTurnId calls session) := by
  unfold applyMessage
  simp only
  refine .trans ?_ (writes_answer _ _ _ _ _)
  split
  · split
    · exact (writes_called readers _ _ _ _ _ session).trans (writes_countUsage _ _ _ _ _)
    · exact writes_called readers _ _ _ _ _ session
  · exact writes_called readers _ _ _ _ _ session

theorem follows_applyRecord (root : Json) (parser : ClaudeSessionParser) :
    Follows sessionTimes (recordTimestamp readers root) parser.session
        (applyRecord readers root parser).session ∧
      Reached (recordTimestamp readers root) (applyRecord readers root parser).session := by
  obtain ⟨hprepare, hreached⟩ := reached_prepare readers root parser
  have hhandled : Follows sessionTimes (recordTimestamp readers root)
      (prepare readers root parser).session (applyRecord readers root parser).session := by
    unfold applyRecord handleRecord
    split
    · exact (follows_handleToolResults readers root _).trans (follows_handleUser root _)
    · unfold handleAssistant
      split
      · exact .refl _
      · exact .map (writes_applyMessage readers _ _ _ _ _) _
    · unfold handleTitle
      split
      · exact .refl _
      next hsession =>
        rw [hsession]
        rintro next ⟨⟩
        exact ⟨_, .inl rfl, writes_of_eq rfl rfl rfl rfl rfl⟩
      · exact .refl _
    · unfold handleSummary
      split
      · exact .refl _
      next hsession =>
        rw [hsession]
        rintro next ⟨⟩
        exact ⟨_, .inl rfl, writes_of_eq rfl rfl rfl rfl rfl⟩
      · exact .refl _
    · exact .refl _
  exact ⟨hprepare.trans hhandled, hhandled.reached hreached⟩

theorem follows_step (parser : ClaudeSessionParser) (line : Step) :
    ∃ i, (i = none ∨ i = instantOf readers line) ∧
      Follows sessionTimes i parser.session (step readers parser line).session ∧
        Reached i (step readers parser line).session := by
  have hnone : ∀ session, Reached none session := by
    rintro session known - t ⟨⟩
  cases line with
  | refresh => exact ⟨none, .inl rfl, .map (writes_refreshSession readers) _, hnone _⟩
  | line line =>
    cases hroot : readers.fromStr line.text with
    | none =>
      have hstep : step readers parser (.line line) = parser := by
        simp only [step, hroot]
      rw [hstep]
      exact ⟨none, .inl rfl, .refl _, hnone _⟩
    | some root =>
      have hstep : step readers parser (.line line) = applyRecord readers root parser := by
        simp only [step, hroot]
      rw [hstep]
      refine ⟨recordTimestamp readers root, .inr ?_, follows_applyRecord readers root parser⟩
      simp only [instantOf, hroot, Option.bind_some]

end ClaudeSessionParser

namespace GeminiSessionParser

variable (readers : Readers)

/-- The instant of a line, when it has one. -/
def instantOf : Step → Option DateTime
  | .refresh => none
  | .line line => (readers.fromStr line.text).bind (recordTimestamp readers)

theorem mem_times_observeCalls {model turnId : Option String} {t : DateTime} {calls : List ToolCall}
    {seen : ExtTreeSet String} {observations : List ToolObservation} {t' : DateTime}
    (h : t' ∈ (observeCalls readers model turnId t calls seen observations).2.map
      ToolObservation.timestamp) :
    t' ∈ observations.map ToolObservation.timestamp ∨ t' = t := by
  induction calls generalizing seen observations with
  | nil => exact .inl h
  | cons call rest ih =>
    unfold observeCalls at h
    rw [List.foldl_cons] at h
    split at h
    · exact ih h
    · rcases ih h with hold | hnew
      · rw [times_observeResult] at hold
        exact mem_times_observeCall hold
      · exact .inr hnew

theorem writes_observed (root : Json) (parser : GeminiSessionParser) (session : Session) :
    Writes sessionTimes i session { session with
      model := (root.str "model").or session.model
      toolObservations := (match i with
        | none => (parser.seenToolIds, session.toolObservations)
        | some timestamp => observeCalls readers (root.str "model") parser.currentTurnId timestamp
            (toolCallsOf root) parser.seenToolIds session.toolObservations).2 } := by
  cases i with
  | none => exact writes_of_eq rfl rfl rfl rfl rfl
  | some t =>
    refine .withTurns (.of_times rfl rfl fun t' ht ↦ ?_) fun _ ht ↦ .inl ht
    rw [eventTimes, List.mem_append] at ht ⊢
    rcases ht with htokens | htools
    · exact .inl (.inl htokens)
    · rcases mem_times_observeCalls readers htools with hold | rfl
      · exact .inl (.inr hold)
      · exact .inr rfl

theorem follows_handleGemini (root : Json) (parser : GeminiSessionParser) :
    Follows sessionTimes i parser.session (handleGemini readers root i parser).session := by
  unfold handleGemini
  simp only
  split
  next hsession =>
    rw [hsession]
    exact .refl _
  next session hsession =>
    rintro next ⟨⟩
    refine ⟨session, .inl hsession, .trans ?_ (writes_answer _ _ _ _ _)⟩
    have hobserved := writes_observed (i := i) readers root parser session
    unfold applyUsage
    split
    · split
      · exact hobserved.trans (writes_countUsage _ _ _ _ _)
      · exact hobserved
    · exact hobserved

theorem follows_handleUser (root : Json) (parser : GeminiSessionParser) :
    Follows sessionTimes i parser.session (handleUser root i parser).session := by
  unfold handleUser
  split
  next prompt session _ hsession =>
    simp only
    split
    · exact .refl _
    · rintro next ⟨⟩
      exact ⟨session, .inl hsession, writes_openPrompt _ _ _ _⟩
  · exact .refl _

theorem follows_applyMessage (root : Json) (recordType : String) (parser : GeminiSessionParser) :
    Follows sessionTimes (recordTimestamp readers root) parser.session
        (applyMessage readers root recordType parser).session ∧
      Reached (recordTimestamp readers root)
        (applyMessage readers root recordType parser).session := by
  have hprepare : Follows sessionTimes (recordTimestamp readers root) parser.session
        (prepare readers root parser).session ∧
      Reached (recordTimestamp readers root) (prepare readers root parser).session := by
    unfold prepare
    cases recordTimestamp readers root with
    | none =>
      refine ⟨.refl _, ?_⟩
      rintro session - t ⟨⟩
    | some instant =>
      exact ⟨.map (fun session ↦ .advance session (sessionTimes_advance _ session)) _,
        reached_advance _ _⟩
  have hhandled : Follows sessionTimes (recordTimestamp readers root)
      (prepare readers root parser).session
        (applyMessage readers root recordType parser).session := by
    unfold applyMessage handleRecord
    split
    · exact follows_handleUser root _
    · exact follows_handleGemini readers root _
    · exact .refl _
  exact ⟨hprepare.1.trans hhandled, hhandled.reached hprepare.2⟩

/-- A header makes the session, whatever its own instant is. -/
theorem follows_ensureSession (header : Json) (parser : GeminiSessionParser) :
    Follows sessionTimes none parser.session (ensureSession readers header parser).session := by
  unfold ensureSession
  split
  · simp only
    split
    · exact .refl _
    · exact .of_fresh ⟨rfl, .inl ⟨rfl, rfl⟩⟩
  · exact .refl _

theorem follows_step (parser : GeminiSessionParser) (line : Step) :
    ∃ i, (i = none ∨ i = instantOf readers line) ∧
      Follows sessionTimes i parser.session (step readers parser line).session ∧
        Reached i (step readers parser line).session := by
  have hnone : ∀ session, Reached none session := by
    rintro session known - t ⟨⟩
  cases line with
  | refresh => exact ⟨none, .inl rfl, .map (writes_refreshSession readers) _, hnone _⟩
  | line line =>
    cases hroot : readers.fromStr line.text with
    | none =>
      have hstep : step readers parser (.line line) = parser := by
        simp only [step, hroot]
      rw [hstep]
      exact ⟨none, .inl rfl, .refl _, hnone _⟩
    | some root =>
      have hstep : step readers parser (.line line) = applyRecord readers root parser := by
        simp only [step, hroot]
      rw [hstep]
      unfold applyRecord
      split
      · split
        · exact ⟨none, .inl rfl, follows_ensureSession readers root parser, hnone _⟩
        · exact ⟨none, .inl rfl, .refl _, hnone _⟩
      · split
        · exact ⟨none, .inl rfl, .refl _, hnone _⟩
        next recordType _ =>
          refine ⟨recordTimestamp readers root, .inr ?_,
            follows_applyMessage readers root recordType parser⟩
          simp only [instantOf, hroot, Option.bind_some]

end GeminiSessionParser

/-- The session of a parser, if there is one, is within its span after the lines of these
instants. -/
def WithinSpan (times : Session → List DateTime) (instants : List DateTime)
    (session : Option Session) : Prop :=
  ∀ known ∈ session, Spanned times instants known

/-- In every run of lines in any order of time, each token count and tool call of the session, and
for Claude Code and Gemini CLI each start and end of a turn, has the instant of one of the lines and
is not behind `last_event_at`, which is the instant of a line or the start of the session. -/
theorem within_span (readers : Readers) (steps : List Step) :
    (∀ filePath archived, WithinSpan eventTimes (steps.filterMap (SessionParser.instantOf readers))
        (SessionParser.run readers steps (.new filePath archived)).session) ∧
      (∀ path, WithinSpan sessionTimes
        (steps.filterMap (ClaudeSessionParser.instantOf readers))
        (ClaudeSessionParser.run readers steps (.new path)).session) ∧
      ∀ filePath, WithinSpan sessionTimes
        (steps.filterMap (GeminiSessionParser.instantOf readers))
        (GeminiSessionParser.run readers steps (.new filePath)).session := by
  refine ⟨fun filePath archived ↦ ?_, fun path ↦ ?_, fun filePath ↦ ?_⟩
  · have hnew : WithinSpan eventTimes [] (SessionParser.new filePath archived).session := by
      rintro known ⟨⟩
    exact spanned_foldl (SessionParser.follows_step readers) steps hnew
  · have hnew : WithinSpan sessionTimes [] (ClaudeSessionParser.new path).session := by
      rintro known ⟨⟩
    exact spanned_foldl (ClaudeSessionParser.follows_step readers) steps hnew
  · have hnew : WithinSpan sessionTimes [] (GeminiSessionParser.new filePath).session := by
      rintro known ⟨⟩
    exact spanned_foldl (GeminiSessionParser.follows_step readers) steps hnew

end AgentOdometer.Parser
