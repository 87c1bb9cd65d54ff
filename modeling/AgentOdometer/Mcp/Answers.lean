import AgentOdometer.Mcp.SessionInvariant

/-!
# What an MCP session promises

Every line gets the answer it is expected to have, at most two queries run at once, a
cancellation reaches one query, and the session ends. A client which waits for answers is never
refused, as long as no answered query is still active when it asks.
-/

namespace AgentOdometer.Mcp

open Transition

variable {services : Services} {L : List BoundedLine} {s t : Session}

/-! ### Answers of a run -/

/-- What holds in every reachable state. -/
theorem invariants_of_reaches {ok : Session → Action → Prop}
    (h : Reaches (step services) ok (.start L) s) :
    IsListed services s ∧ Accounted services L s := by
  refine @Reaches.invariant _ _ _ _ _ _ (fun s ↦ IsListed services s ∧ Accounted services L s)
    ?_ h ?_
  · intro s action t hs _ hstep
    have heffect := effect_of_step hstep
    exact ⟨isListed_effect hs.1 heffect, accounted_effect hs.1 hs.2 heffect⟩
  · exact ⟨isListed_start, accounted_start⟩

/-- The ids of the responses which were written for a line. -/
def writtenIds (s : Session) (n : Nat) : List Value :=
  (s.output.filter (·.1 == n)).map (·.2.id)

theorem writtenIds_eq_replicate (h : Accounted services L s) (n : Nat) {id : Value}
    (hid : expectedAt services L n = some id) :
    writtenIds s n = List.replicate (s.output.countP (·.1 == n)) id := by
  rw [writtenIds, List.eq_replicate_iff, List.length_map, List.countP_eq_length_filter]
  refine ⟨rfl, fun other hother ↦ ?_⟩
  obtain ⟨answer, hanswer, rfl⟩ := List.mem_map.mp hother
  rw [List.mem_filter, beq_iff_eq] at hanswer
  have hexpected := h.output answer hanswer.1
  rw [hanswer.2, hid] at hexpected
  exact (Option.some.inj hexpected).symm

/-- No line has a second response, or one with another id. -/
theorem writtenIds_sublist (h : Accounted services L s) (n : Nat) :
    (writtenIds s n).Sublist (expectedAt services L n).toList := by
  have hcount := h.answers n
  unfold answers at hcount
  cases hid : expectedAt services L n with
  | none =>
    rw [hid] at hcount
    simp only [Option.isSome_none, Bool.false_eq_true, and_false, if_false] at hcount
    have hzero : s.output.countP (·.1 == n) = 0 := by omega
    rw [List.countP_eq_length_filter, List.length_eq_zero_iff] at hzero
    rw [writtenIds, hzero]
    exact List.Sublist.slnil
  | some id =>
    rw [writtenIds_eq_replicate h n hid]
    have hle : s.output.countP (·.1 == n) ≤ 1 := by
      split at hcount <;> omega
    exact (List.replicate_sublist_replicate id).mpr hle

/-- After the end of the input every line has its response. -/
theorem writtenIds_of_returned (h : Accounted services L s) (hreturned : s.returned = true)
    (n : Nat) : writtenIds s n = (expectedAt services L n).toList := by
  obtain ⟨hlines, hpending, hworkers⟩ := h.returned hreturned
  have hcount := h.answers n
  unfold answers at hcount
  rw [hpending, hworkers] at hcount
  cases hid : expectedAt services L n with
  | none =>
    have hsublist := writtenIds_sublist h n
    rw [hid] at hsublist
    exact List.sublist_nil.mp hsublist
  | some id =>
    have hall : s.taken ≥ L.length := by
      have hdrop := h.lines
      rw [hlines] at hdrop
      exact List.drop_eq_nil_iff.mp hdrop.symm
    have hlt : n < L.length := by
      rw [expectedAt] at hid
      cases hline : L[n]? with
      | none => rw [hline] at hid; cases hid
      | some line => exact (List.getElem?_eq_some_iff.mp hline).1
    rw [hid, if_pos ⟨by omega, rfl⟩] at hcount
    rw [writtenIds_eq_replicate h n hid]
    simp only [Option.toList_none, List.countP_nil, List.map_nil, List.sum_nil] at hcount
    rw [show s.output.countP (·.1 == n) = 1 by omega]
    rfl

/-! ### Cancellation -/

open Classical in
/-- A cancellation reaches the query with its id, and nothing else. -/
theorem workers_cancelQuery (hids : ∀ a b : Value, a.isId = true →
      services.toText a = services.toText b → a = b)
    (h : IsListed services s) (requestId : Value) :
    cancelQuery services s requestId = s.workers.map fun worker ↦
      if worker.id = requestId then { worker with cancelled := true } else worker := by
  have hkey : ∀ worker ∈ s.workers, worker.key = services.toText requestId ↔
      worker.id = requestId := by
    intro worker hworker
    obtain ⟨hkey, hid⟩ := h.keys worker.query (query_mem hworker)
    have hkey' : worker.key = services.toText worker.id := hkey
    rw [hkey']
    exact ⟨hids _ _ hid, congrArg _⟩
  unfold cancelQuery
  cases hactive : s.active[services.toText requestId]? with
  | none =>
    have hnone : ∀ worker ∈ s.workers, worker.id ≠ requestId := by
      intro worker hworker hid
      have hsome := (h.lookup (services.toText requestId) worker.line).mpr
        ⟨worker.query, query_mem hworker, (hkey worker hworker).mpr hid, rfl⟩
      rw [hactive] at hsome
      cases hsome
    have hself : ∀ worker ∈ s.workers, (if worker.id = requestId then
        { worker with cancelled := true } else worker) = worker :=
      fun worker hworker ↦ if_neg (hnone worker hworker)
    rw [List.map_congr_left hself, List.map_id']
  | some n =>
    obtain ⟨query, hquery, hquerykey, rfl⟩ := (h.lookup _ _).mp hactive
    obtain ⟨found, hfound, rfl⟩ := List.mem_map.mp hquery
    apply List.map_congr_left
    intro worker hworker
    have hline : worker.line = found.query.line ↔ worker.id = requestId := by
      rw [← hkey worker hworker]
      constructor
      · intro hline
        rw [List.inj_on_of_nodup_map h.nodup hworker hfound hline]
        exact hquerykey
      · intro hsame
        exact congrArg Query.line (h.eq_of_key (query_mem hworker) hquery
          (hsame.trans hquerykey.symm))
    simp only [hline]

/-! ### The end of a session -/

/-- A bound on the steps which a session has ahead. -/
def remaining (s : Session) : Nat :=
  5 * s.lines.length + s.pending.toList.length +
    (s.workers.map fun worker ↦ worker.phase.remaining).sum + if s.returned then 0 else 1

theorem sum_remaining_cancelQuery {requestId : Value} :
    ((cancelQuery services s requestId).map fun worker ↦ worker.phase.remaining).sum =
      (s.workers.map fun worker ↦ worker.phase.remaining).sum := by
  unfold cancelQuery
  split
  · rfl
  · unfold cancelLine
    rw [List.map_map]
    congr 1
    apply List.map_congr_left
    intro worker _
    show Phase.remaining (Worker.phase (if _ then _ else _)) = _
    split <;> rfl

theorem sum_remaining_setPhase (h : IsListed services s) {worker : Worker}
    (hworker : worker ∈ s.workers) (phase : Phase) :
    ((setPhase s worker.line phase).workers.map fun worker ↦ worker.phase.remaining).sum +
        worker.phase.remaining =
      (s.workers.map fun worker ↦ worker.phase.remaining).sum + phase.remaining :=
  sum_map_update h.nodup hworker

/-- Every step is one of finitely many. -/
theorem remaining_lt (hlisted : IsListed services s) (heffect : Effect services s t) :
    remaining t < remaining s := by
  unfold remaining
  cases heffect with
  | quiet hpending hlines =>
    unfold advanceReader
    simp only [hlines, List.length_cons]
    omega
  | cancel hpending hlines =>
    unfold advanceReader
    simp only [hlines, List.length_cons, sum_remaining_cancelQuery]
    omega
  | reply hpending hlines =>
    unfold advanceReader reply
    simp only [hlines, hpending, List.length_cons, Option.toList_some, Option.toList_none,
      List.length_nil]
    omega
  | refuse hpending hlines =>
    unfold advanceReader reply
    simp only [hlines, hpending, List.length_cons, Option.toList_some, Option.toList_none,
      List.length_nil]
    omega
  | spawn hpending hlines =>
    unfold advanceReader
    simp only [hlines, List.length_cons, List.map_append, List.sum_append, List.map_singleton,
      List.sum_singleton, Phase.remaining]
    omega
  | write hpending =>
    simp only [hpending, Option.toList_some, Option.toList_none, List.length_cons,
      List.length_nil]
    omega
  | @advance worker phase hworker hopen hphase hremaining =>
    have hsum := sum_remaining_setPhase hlisted (mem_of_workerOf hworker) phase
    show 5 * s.lines.length + s.pending.toList.length +
      ((setPhase s worker.line phase).workers.map fun worker ↦ worker.phase.remaining).sum +
        (if s.returned then 0 else 1) < _
    omega
  | @respond worker response hworker hphase =>
    have hsum := sum_remaining_setPhase hlisted (mem_of_workerOf hworker) .answered
    have hbefore : worker.phase.remaining = 2 := by rw [hphase]; rfl
    have hafter : Phase.answered.remaining = 1 := rfl
    show 5 * s.lines.length + s.pending.toList.length +
      ((setPhase s worker.line .answered).workers.map fun worker ↦ worker.phase.remaining).sum +
        (if s.returned then 0 else 1) < _
    omega
  | @remove worker hworker hphase =>
    have hsum : ((s.workers.filter (·.line ≠ worker.line)).map fun worker ↦
        worker.phase.remaining).sum + worker.phase.remaining =
          (s.workers.map fun worker ↦ worker.phase.remaining).sum :=
      sum_map_remove hlisted.nodup (mem_of_workerOf hworker)
    have hbefore : worker.phase.remaining = 1 := by rw [hphase]; rfl
    show 5 * s.lines.length + s.pending.toList.length +
      ((s.workers.filter (·.line ≠ worker.line)).map fun worker ↦ worker.phase.remaining).sum +
        (if s.returned then 0 else 1) < _
    omega
  | finish hpending hlines hworkers hreturned =>
    simp [hreturned]

theorem workerOf_of_mem (h : IsListed services s) {worker : Worker} (hworker : worker ∈ s.workers) :
    workerOf s worker.line = some worker := by
  cases hfind : workerOf s worker.line with
  | none =>
    have hnone := List.find?_eq_none.mp hfind worker hworker
    simp at hnone
  | some found =>
    rw [List.inj_on_of_nodup_map h.nodup (mem_of_workerOf hfind) hworker (line_of_workerOf hfind)]

/-- A session which has not returned has a next step. -/
theorem exists_step (h : IsListed services s) (hreturned : s.returned = false) :
    ∃ action t, step services s action = some t := by
  cases hworkers : s.workers with
  | cons worker rest =>
    have hfind : workerOf s worker.line = some worker := by
      apply workerOf_of_mem h
      rw [hworkers]
      exact List.mem_cons_self
    obtain ⟨line, id, key, call, cancelled, phase⟩ := worker
    simp only at hfind
    cases phase with
    | started =>
      refine ⟨.check line true, ?_⟩
      cases cancelled <;> simp [step, checkWorker, hfind, checkControl]
    | executing => exact ⟨.execute line (.ok "") false, by simp [step, executeWorker, hfind]⟩
    | responding response => exact ⟨.respond line, by simp [step, respondWorker, hfind]⟩
    | answered => exact ⟨.remove line, by simp [step, removeWorker, hfind]⟩
  | nil =>
    cases hpending : s.pending with
    | some answer => exact ⟨.write, by simp [step, writePending, hpending]⟩
    | none =>
      cases hlines : s.lines with
      | cons line rest => exact ⟨.read, by simp [step, takeLine, hpending, hlines]⟩
      | nil =>
        exact ⟨.finish, by simp [step, finishSession, hpending, hlines, hworkers, hreturned]⟩

end AgentOdometer.Mcp
