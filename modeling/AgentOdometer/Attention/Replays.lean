import AgentOdometer.Attention.Consume

/-!
# Alerts do not replay

Two alerts of any run are thirty seconds apart. An alert stays covered: by the watermark of its
session, or, once a publication has pruned that, by the last alert, after which the signal is too
old before another alert may be raised. Only a fact whose signal changes its time alerts twice.
-/

namespace AgentOdometer.Attention

open Ledger (effectiveStorageId)

/-- A store which was loaded is valid at that time, and is the file or the default. -/
theorem load_ok {file : Option Store} {readable : Bool} {now : DateTime} {store : Store}
    (h : load file readable now = .ok store) :
    (∀ held, file = some held → held = store) ∧ store.seen.length ≤ MAX_SEEN ∧
      store.preferences.staleAfterSeconds ≤ 3600 ∧
        ∀ last, store.lastAlert = some last → last ≤ now := by
  unfold load at h
  split at h
  · cases file with
    | none =>
      cases h
      exact ⟨fun _ h ↦ (nomatch h), by decide, by decide, fun _ h ↦ (nomatch h)⟩
    | some held =>
      obtain ⟨_, hshape, h⟩ := bind_eq_ok.mp h
      obtain ⟨_, hvalid, h⟩ := bind_eq_ok.mp h
      obtain ⟨_, htimes, h⟩ := bind_eq_ok.mp h
      cases h
      unfold Preferences.validate at hvalid
      simp only [require_eq_ok, Bool.and_eq_true, decide_eq_true_eq] at hshape hvalid htimes
      refine ⟨fun other hother ↦ (Option.some.inj hother).symm, hshape.1.1.2, hvalid.2, ?_⟩
      intro last hlast
      simpa [hlast] using htimes.1
  · cases h

/-- What a publication saved: it consumed candidates against a store which was valid then. -/
structure Publication (file : Option Store) (storageId : String) (candidates : List Signal)
    (now : DateTime) (store : Store) (d : Consumed) : Prop where
  held : ∀ held, file = some held → held = store
  past : ∀ last, store.lastAlert = some last → last ≤ now
  stale : store.preferences.staleAfterSeconds ≤ 3600
  progress : Progress (store.prune now) (digest storageId) now candidates d
  remembers : Remembers (store.prune now) (digest storageId) now candidates d

/-- Outside the early return the candidates are consumed, and the log is trimmed. -/
theorem consumeAll_some {store : Store} {storageId : String} {candidates : List Signal}
    {now : DateTime} {c : Consumed} (h : consumeAll store storageId candidates now = some c) :
    c = ⟨(candidates.foldl (consume storageId (store.prune now).watermarks[digest storageId]? now)
        ⟨store.prune now, none⟩).store.trim,
      (candidates.foldl (consume storageId (store.prune now).watermarks[digest storageId]? now)
        ⟨store.prune now, none⟩).alert⟩ := by
  unfold consumeAll at h
  simp only at h
  split at h
  · cases h
  · exact (Option.some.inj h).symm

/-- A publication leaves the file and raises nothing, or consumes and saves. -/
theorem publish_cases {inner : Inner} {file : Option Store} {access : Access} {storageId : String}
    {candidates : List Signal} {now : DateTime} {outcome : Option Consumed × Option Store}
    (hsorted : candidates.Pairwise (·.time ≤ ·.time))
    (h : inner.publish file access storageId candidates now = .ok outcome) :
    (outcome.2 = file ∧ ∀ c, outcome.1 = some c → c.alert = none) ∨
      ∃ store d, outcome = (some ⟨d.store.trim, d.alert⟩, some d.store.trim) ∧
        store.preferences = inner.store.preferences ∧
          Publication file storageId candidates now store d := by
  unfold Inner.publish at h
  obtain ⟨store, hload, h⟩ := bind_eq_ok.mp h
  obtain ⟨_, hsame, h⟩ := bind_eq_ok.mp h
  rw [require_eq_ok, beq_iff_eq] at hsame
  obtain ⟨_, -, hload⟩ := bind_eq_ok.mp hload
  obtain ⟨hheld, hlength, hstale, hpast⟩ := load_ok hload
  cases hconsume : consumeAll store storageId candidates now with
  | none =>
    simp only [hconsume] at h
    cases h
    exact .inl ⟨rfl, fun _ h ↦ (nomatch h)⟩
  | some c =>
    have hc := consumeAll_some hconsume
    have hprogress := progress_foldl (store.prune now) storageId now candidates hpast hsorted
    generalize candidates.foldl _ _ = d at hc hprogress
    subst hc
    simp only [hconsume] at h
    rcases hprogress.consumed with rfl | hremembers
    · have htrim : (store.prune now).trim.seen = store.seen := by
        rw [Store.trim_seen, Store.prune_seen, Nat.sub_eq_zero_of_le hlength, List.drop_zero]
      simp only [htrim, ↓reduceIte] at h
      cases h
      refine .inl ⟨rfl, fun c hc ↦ ?_⟩
      cases hc
      rfl
    · have htrim : d.store.trim.seen ≠ store.seen := by
        obtain ⟨ids, hne, hseen, hnew⟩ := hremembers.newIds
        rw [Store.prune_seen] at hseen hnew
        rw [Store.trim_seen, hseen]
        exact trim_ne hne hnew
      simp only [htrim, ↓reduceIte] at h
      obtain ⟨_, -, h⟩ := bind_eq_ok.mp h
      cases h
      exact .inr ⟨store, d, rfl, hsame, hheld, hpast, hstale, hprogress, hremembers⟩

section Observe

variable {display : DateTime → String} {inner : Inner} {file : Option Store} {access : Access}
  {session : Session} {now : DateTime} {liveAppend : Bool}

variable (display inner file access session now liveAppend) in
/-- An observation leaves the file and raises nothing, or publishes candidates. -/
theorem observe_cases :
    ((inner.observe display file access session now liveAppend).file = file ∧
      (inner.observe display file access session now liveAppend).alert = none) ∨
    ∃ store d, liveAppend = true ∧
      (inner.observe display file access session now liveAppend).file = some d.store.trim ∧
      (inner.observe display file access session now liveAppend).alert = d.alert ∧
      store.preferences = inner.store.preferences ∧
        Publication file (effectiveStorageId session) (inner.candidates display session now) now
          store d := by
  unfold Inner.observe
  split
  · split
    · exact .inl ⟨rfl, rfl⟩
    · split
      · rename_i hlive
        unfold Inner.alertOn
        simp only
        split
        · exact .inl ⟨rfl, rfl⟩
        · have hsorted : (inner.candidates display session now).Pairwise (·.time ≤ ·.time) :=
            (signals_pairwise display session).filter _
          split
          · exact .inl ⟨rfl, rfl⟩
          · rename_i hpublish
            rcases publish_cases hsorted hpublish with ⟨hfile, -⟩ | ⟨store, d, houtcome, -⟩
            · exact .inl ⟨hfile, rfl⟩
            · cases houtcome
          · rename_i hpublish
            rcases publish_cases hsorted hpublish with
              ⟨hfile, halert⟩ | ⟨store, d, houtcome, hsame, hpublication⟩
            · exact .inl ⟨hfile, halert _ rfl⟩
            · cases houtcome
              exact .inr ⟨store, d, hlive, rfl, rfl, hsame, hpublication⟩
      · exact .inl ⟨rfl, rfl⟩
  · exact .inl ⟨rfl, rfl⟩

end Observe

/-! ### One publication and the alerts before it -/

/-- The store keeps an alert from being raised again: its session is past it, or no other alert may
be raised before its signal is too old. -/
def Covered (raised : Raised) (store : Store) : Prop :=
  (∃ mark, store.watermarks[digest raised.fact.storageId]? = some mark ∧ raised.time ≤ mark) ∨
    ∃ last, store.lastAlert = some last ∧
      raised.time.nanos + 3600 * 10 ^ 9 < last.nanos + 30 * 10 ^ 9

/-- The last alert of a store is no older than a raised one. -/
def Dated (raised : Raised) (store : Store) : Prop :=
  ∃ last, store.lastAlert = some last ∧ raised.now ≤ last

namespace Publication

variable {file : Option Store} {storageId : String} {candidates : List Signal} {now : DateTime}
  {store : Store} {d : Consumed} (h : Publication file storageId candidates now store d)
  {raised : Raised} {alerted : Signal}
include h

/-- The last alert after a publication is recent, and no older than before. -/
theorem recent : ∃ last, d.store.trim.lastAlert = some last ∧
    now.nanos < last.nanos + 30 * 10 ^ 9 ∧
      ∀ before, store.lastAlert = some before → before ≤ last := by
  simpa using h.remembers.recent

/-- An alert stays covered. -/
theorem covered (hcovered : Covered raised store) : Covered raised d.store.trim := by
  obtain ⟨last, hlast, hrecent, hbefore⟩ := h.recent
  rcases hcovered with ⟨mark, hmark, hle⟩ | ⟨before, hsome, hold⟩
  · rcases getElem?_prune now hmark with hkept | hpruned
    · left
      by_cases hkey : digest raised.fact.storageId = digest storageId
      · obtain ⟨signal, -, hnew, hlater, -⟩ := h.remembers.watermark
        refine ⟨signal.time, ?_, hle.trans (hlater mark (hkey ▸ hkept)).le⟩
        rw [Store.trim_watermarks, hkey, hnew]
      · refine ⟨mark, ?_, hle⟩
        rw [Store.trim_watermarks, h.progress.others _ hkey, hkept]
    · right
      refine ⟨last, hlast, ?_⟩
      have := DateTime.le_iff.mp hle
      omega
  · right
    refine ⟨last, hlast, ?_⟩
    have := DateTime.le_iff.mp (hbefore before hsome)
    omega

/-- The last alert stays no older than a raised one. -/
theorem dated (hdated : Dated raised store) : Dated raised d.store.trim := by
  obtain ⟨last, hlast, -, hbefore⟩ := h.recent
  obtain ⟨before, hsome, hle⟩ := hdated
  exact ⟨last, hlast, hle.trans (hbefore before hsome)⟩

/-- A new alert is covered by the watermark of its session. -/
theorem covered_alert (halert : d.alert = some alerted) :
    Covered ⟨factOf storageId alerted, alerted.time, now⟩ d.store.trim := by
  obtain ⟨signal, -, hmark, -, hlast⟩ := h.remembers.watermark
  refine .inl ⟨signal.time, ?_, hlast alerted halert⟩
  rw [Store.trim_watermarks]
  exact hmark

/-- A new alert is the last one. -/
theorem dated_alert (halert : d.alert = some alerted) :
    Dated ⟨factOf storageId alerted, alerted.time, now⟩ d.store.trim := by
  refine ⟨now, ?_, le_rfl⟩
  rw [Store.trim_lastAlert]
  exact (h.progress.alerted alerted halert).2.2.1

/-- A new alert is thirty seconds after those before it. -/
theorem apart (halert : d.alert = some alerted) (hdated : Dated raised store) :
    seconds 30 ≤ now.signedDurationSince raised.now := by
  obtain ⟨last, hlast, hle⟩ := hdated
  have hroom := mayAlert_iff.mp (h.progress.alerted alerted halert).2.2.2 last
    ((Store.prune_lastAlert store now).trans hlast)
  have := DateTime.le_iff.mp hle
  rw [seconds_le_iff]
  omega

/-- A covered alert is not raised again by a signal of the same session and time. -/
theorem not_again {inner : Inner} (hsame : store.preferences = inner.store.preferences)
    (hcandidates : ∀ signal ∈ candidates, inner.isCandidate now signal = true)
    (halert : d.alert = some alerted) (hcovered : Covered raised store)
    (hsession : raised.fact.storageId = storageId) : alerted.time ≠ raised.time := by
  intro htime
  obtain ⟨hmem, hlater, -, hroom⟩ := h.progress.alerted alerted halert
  have hfresh : now.nanos ≤ alerted.time.nanos + 3600 * 10 ^ 9 := by
    have hcandidate := hcandidates alerted hmem
    simp only [Inner.isCandidate, Bool.and_eq_true, decide_eq_true_eq] at hcandidate
    have := le_seconds_iff.mp hcandidate.1.1.2
    have hstale := h.stale
    rw [hsame] at hstale
    have : (inner.store.preferences.staleAfterSeconds : Int) * 10 ^ 9 ≤ 3600 * 10 ^ 9 := by
      omega
    omega
  rw [htime] at hfresh hlater
  rcases hcovered with ⟨mark, hmark, hle⟩ | ⟨last, hlast, hold⟩
  · rcases getElem?_prune now hmark with hkept | hpruned
    · rw [hsession] at hkept
      exact absurd hle (not_le.mpr (hlater mark hkept))
    · have := DateTime.le_iff.mp hle
      omega
  · have := mayAlert_iff.mp hroom last ((Store.prune_lastAlert store now).trans hlast)
    omega

end Publication

end AgentOdometer.Attention
