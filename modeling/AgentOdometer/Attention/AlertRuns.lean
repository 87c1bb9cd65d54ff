import AgentOdometer.Attention.Replays

/-!
# Alerts of a run

Any two alerts of a run are thirty seconds apart, and a fact whose signals keep their time raises
one alert at most.
-/

namespace AgentOdometer.Attention

open Ledger (effectiveStorageId)

/-- A change of the preferences saves the memories which it loaded. -/
theorem preferences_ok {inner next : Inner} {file : Option Store} {access : Access}
    {update : Preferences} {now : DateTime} {store : Store}
    (h : inner.preferences file access update now = .ok (next, store)) :
    ∃ loaded : Store, (∀ held, file = some held → held = loaded) ∧
      store.watermarks = loaded.watermarks ∧ store.lastAlert = loaded.lastAlert := by
  unfold Inner.preferences at h
  obtain ⟨_, -, h⟩ := bind_eq_ok.mp h
  obtain ⟨loaded, hload, h⟩ := bind_eq_ok.mp h
  obtain ⟨_, -, h⟩ := bind_eq_ok.mp h
  obtain ⟨_, -, h⟩ := bind_eq_ok.mp h
  obtain ⟨_, -, h⟩ := bind_eq_ok.mp h
  obtain ⟨_, -, hload⟩ := bind_eq_ok.mp hload
  cases h
  exact ⟨loaded, (load_ok hload).1, rfl, rfl⟩

namespace System

variable {display : DateTime → String} {s t : System}

/-- What a step does to the file and the alerts: nothing, a change of the preferences alone, or a
publication of a process. -/
inductive Effect (display : DateTime → String) (s : System) : Action → System → Prop where
  | quiet {a : Action} {t : System} (hfile : t.file = s.file) (hraised : t.raised = s.raised) :
      Effect display s a t
  | preferred {a : Action} {t : System} {store next : Store}
      (held : ∀ held, s.file = some held → held = store) (hfile : t.file = some next)
      (hmarks : next.watermarks = store.watermarks) (hlast : next.lastAlert = store.lastAlert)
      (hraised : t.raised = s.raised) : Effect display s a t
  | published {i : Nat} {now : DateTime} {access : Access} {session : Session}
      {t : System} {inner : Inner} {store : Store} {d : Consumed}
      (hprocess : s.processes i = some inner) (hsame : store.preferences = inner.store.preferences)
      (hpublication : Publication s.file (effectiveStorageId session)
        (inner.candidates display session now) now store d)
      (hfile : t.file = some d.store.trim) (hraised : t.raised = s.raise session now d.alert) :
      Effect display s (.observe i now access session true) t

/-- Every step has one of these effects. -/
theorem step_effect {a : Action} (h : s.step display a = some t) : Effect display s a t := by
  cases a with
  | start i now readable =>
    obtain rfl := Option.some.inj h
    exact .quiet rfl rfl
  | preferences i now access update =>
    obtain ⟨inner, -, rfl⟩ := Option.map_eq_some_iff.mp h
    cases hupdate : inner.preferences s.file access update now with
    | error error => exact .quiet rfl rfl
    | ok outcome =>
      obtain ⟨loaded, hheld, hmarks, hlast⟩ := preferences_ok hupdate
      exact .preferred hheld rfl hmarks hlast rfl
  | observe i now access session live =>
    obtain ⟨inner, hprocess, rfl⟩ := Option.map_eq_some_iff.mp h
    rcases observe_cases display inner s.file access session now live with
      ⟨hfile, halert⟩ | ⟨store, d, rfl, hfile, halert, hsame, hpublication⟩
    · refine .quiet hfile ?_
      simp [set, raise, halert]
    · refine .published hprocess hsame hpublication hfile ?_
      simp [set, halert]
  | snapshot i now readable valid =>
    obtain ⟨inner, -, rfl⟩ := Option.map_eq_some_iff.mp h
    exact .quiet rfl rfl

/-- The alerts after a publication: those before it, and one more if it raised one. -/
theorem mem_raise {session : Session} {now : DateTime} {alert : Option Signal} {r : Raised}
    (h : r ∈ s.raise session now alert) : r ∈ s.raised ∨ ∃ signal, alert = some signal ∧
      r = ⟨factOf (effectiveStorageId session) signal, signal.time, now⟩ := by
  rcases List.mem_append.mp h with hold | hnew
  · exact .inl hold
  · simp only [Option.mem_toList, Option.map_eq_some_iff] at hnew
    obtain ⟨signal, hsignal, rfl⟩ := hnew
    exact .inr ⟨signal, hsignal, rfl⟩

/-! ### Thirty seconds -/

/-- Raised alerts are dated by the store, and thirty seconds apart. -/
structure Spaced (s : System) : Prop where
  dated : ∀ r ∈ s.raised, ∃ store, s.file = some store ∧ Dated r store
  apart : s.raised.Pairwise fun a b ↦ seconds 30 ≤ b.now.signedDurationSince a.now

theorem spaced_start (file : Option Store) : (start file).Spaced :=
  ⟨fun _ h ↦ (nomatch h), List.Pairwise.nil⟩

theorem Spaced.step (h : s.Spaced) {a : Action} (hstep : s.step display a = some t) :
    t.Spaced := by
  cases step_effect hstep with
  | quiet hfile hraised =>
    refine ⟨fun r hr ↦ ?_, hraised ▸ h.apart⟩
    rw [hfile]
    exact h.dated r (hraised ▸ hr)
  | preferred held hfile hmarks hlast hraised =>
    refine ⟨fun r hr ↦ ?_, hraised ▸ h.apart⟩
    obtain ⟨store, hstore, last, hsome, hle⟩ := h.dated r (hraised ▸ hr)
    obtain rfl := held store hstore
    exact ⟨_, hfile, last, hlast.trans hsome, hle⟩
  | @published i now access session _ inner store d hprocess hsame hpublication hfile hraised =>
    have hdated : ∀ r ∈ s.raised, Dated r store := by
      intro r hr
      obtain ⟨held, hheld, hdated⟩ := h.dated r hr
      exact hpublication.held held hheld ▸ hdated
    refine ⟨fun r hr ↦ ⟨_, hfile, ?_⟩, ?_⟩
    · rw [hraised] at hr
      rcases mem_raise hr with hold | ⟨signal, halert, rfl⟩
      · exact hpublication.dated (hdated r hold)
      · exact hpublication.dated_alert halert
    · rw [hraised, raise, List.pairwise_append]
      refine ⟨h.apart, ?_, fun a ha b hb ↦ ?_⟩
      · cases Option.map _ _ with
        | none => exact List.Pairwise.nil
        | some r => exact List.pairwise_singleton _ r
      · simp only [Option.mem_toList, Option.map_eq_some_iff] at hb
        obtain ⟨signal, halert, rfl⟩ := hb
        exact hpublication.apart halert (hdated a ha)

/-- In every run two alerts are thirty seconds apart. -/
theorem alerts_apart {file : Option Store}
    (h : Transition.Reaches (step display) Transition.always (start file) s) :
    s.raised.Pairwise fun a b ↦ seconds 30 ≤ b.now.signedDurationSince a.now := by
  have hspaced : s.Spaced := h.invariant (fun _ _ _ h _ hstep ↦ h.step hstep) (spaced_start file)
  exact hspaced.apart

/-! ### Once -/

variable (display) in
/-- The candidates of a live observation give each fact the same time as every other
observation. -/
def Timed (time : Fact → DateTime) (s : System) : Action → Prop
  | .observe i now _ session true => ∀ inner, s.processes i = some inner →
      ∀ signal ∈ inner.candidates display session now,
        signal.time = time (factOf (effectiveStorageId session) signal)
  | _ => True

/-- Raised alerts have the time of their fact, are covered by the store, and are of different
facts. -/
structure Once (time : Fact → DateTime) (s : System) : Prop where
  timed : ∀ r ∈ s.raised, r.time = time r.fact
  covered : ∀ r ∈ s.raised, ∃ store, s.file = some store ∧ Covered r store
  once : (s.raised.map (·.fact)).Nodup

variable {time : Fact → DateTime}

theorem once_start (file : Option Store) : (start file).Once time :=
  ⟨fun _ h ↦ (nomatch h), fun _ h ↦ (nomatch h), List.nodup_nil⟩

theorem Once.step (h : s.Once time) {a : Action} (hok : s.Timed display time a)
    (hstep : s.step display a = some t) : t.Once time := by
  cases step_effect hstep with
  | quiet hfile hraised =>
    refine ⟨hraised ▸ h.timed, ?_, hraised ▸ h.once⟩
    rw [hfile, hraised]
    exact h.covered
  | preferred held hfile hmarks hlast hraised =>
    refine ⟨hraised ▸ h.timed, fun r hr ↦ ?_, hraised ▸ h.once⟩
    obtain ⟨store, hstore, hcovered⟩ := h.covered r (hraised ▸ hr)
    obtain rfl := held store hstore
    refine ⟨_, hfile, ?_⟩
    unfold Covered at hcovered ⊢
    rwa [hmarks, hlast]
  | @published i now access session _ inner store d hprocess hsame hpublication hfile hraised =>
    have htimed := hok inner hprocess
    have hcovered : ∀ r ∈ s.raised, Covered r store := by
      intro r hr
      obtain ⟨held, hheld, hcovered⟩ := h.covered r hr
      exact hpublication.held held hheld ▸ hcovered
    have hcandidate : ∀ signal ∈ inner.candidates display session now,
        inner.isCandidate now signal = true :=
      fun signal hsignal ↦ (List.mem_filter.mp hsignal).2
    have halerted : ∀ signal, d.alert = some signal →
        signal.time = time (factOf (effectiveStorageId session) signal) :=
      fun signal halert ↦ htimed signal (hpublication.progress.alerted signal halert).1
    refine ⟨fun r hr ↦ ?_, fun r hr ↦ ⟨_, hfile, ?_⟩, ?_⟩
    · rcases mem_raise (hraised ▸ hr) with hold | ⟨signal, halert, rfl⟩
      · exact h.timed r hold
      · exact halerted signal halert
    · rcases mem_raise (hraised ▸ hr) with hold | ⟨signal, halert, rfl⟩
      · exact hpublication.covered (hcovered r hold)
      · exact hpublication.covered_alert halert
    · rw [hraised, raise, List.map_append]
      cases halert : d.alert with
      | none => simpa using h.once
      | some signal =>
        refine h.once.append (List.nodup_singleton _) ?_
        simp only [List.disjoint_right, Option.map_some, Option.toList_some, List.map_cons,
          List.map_nil, List.mem_singleton, forall_eq, List.mem_map, not_exists, not_and]
        intro r hr hfact
        refine hpublication.not_again hsame hcandidate halert (hcovered r hr)
          (congrArg Fact.storageId hfact) ?_
        rw [halerted signal halert, h.timed r hr, hfact]

/-- One minute after the epoch. -/
def oneMinute : DateTime :=
  ⟨60 * 10 ^ 9, by decide, by decide⟩

/-- `Display` at the two times. -/
def demoDisplay (time : DateTime) : String :=
  if time = .epoch then "1970-01-01 00:00:00 UTC" else "1970-01-01 00:01:00 UTC"

/-- A session whose only turn was rolled back, and which grew until the given time. -/
def rolledBackSession (lastEventAt : DateTime) : Session :=
  { Session.blank .codex "thread" .epoch with
    lastEventAt
    turns := [⟨"turn", 0, none, none, none, none, .rolledBack, none, none, none, none, none, none,
      none, .zero, .zero, ⟨1, .other, 0.0, []⟩⟩] }

/-- The file can be read, locked and written. -/
def granted : Access :=
  ⟨true, true, true⟩

/-- The state after a step, or the same state. -/
def next (s : System) (a : Action) : System :=
  (s.step demoDisplay a).getD s

theorem step_next {a : Action} (h : (s.step demoDisplay a).isSome = true) :
    s.step demoDisplay a = some (s.next a) := by
  obtain ⟨t, ht⟩ := Option.isSome_iff_exists.mp h
  simp [next, ht]

/-- A process with alerts on interrupted turns. -/
def watching : System :=
  ((start none).next (.start 0 .epoch true)).next
    (.preferences 0 .epoch granted { Preferences.default with categories := [.turnInterrupted] })

/-- The observation of the rolled-back turn at the given time. -/
def rollback (time : DateTime) : Action :=
  .observe 0 time granted (rolledBackSession time) true

theorem reaches_watching (ok : System → Action → Prop)
    (h₁ : ok (start none) (.start 0 .epoch true))
    (h₂ : ok ((start none).next (.start 0 .epoch true)) (.preferences 0 .epoch granted
      { Preferences.default with categories := [.turnInterrupted] })) :
    Transition.Reaches (step demoDisplay) ok (start none) watching :=
  ((Transition.Reaches.refl _).tail h₁ (step_next (by decide +kernel))).tail h₂
    (step_next (by decide +kernel))

end System

end AgentOdometer.Attention
